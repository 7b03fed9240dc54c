import AccessControl.Proofs.Postgres.Linearization

/-!
# Calls of two statements among the texts of others

What was found for commands is said here of the texts that a server receives, its own and those of
others, where the server does what each text means. Grants and listings take place at one moment
between their two statements.
-/

namespace AccessControl.Postgres

open Sql
open Dialogue (Exchange others)

def Rows.Course (t : Tables) : Rows → List (Exchange fun _ : Statement => Answer) → Rows → Prop
  | r, [], r' => r' = r
  | r, x :: xs, r' => ∃ m, r.Means t x.1 x.2 m ∧ Course t m xs r'

def inText (t : Tables) (x : Exchange fun _ : Command => Answer) :
    Exchange fun _ : Statement => Answer :=
  ⟨x.1.statement t, x.2⟩

variable {σ α : Type} {t : Tables} {server : Statement → σ → Answer × σ} {view : σ → Rows} {s : σ}

theorem Rows.means_statement (ht : t.Apart) {r r' : Rows} {c : Command} {a : Answer} :
    r.Means t (c.statement t) a r' ↔ r.Executes c a r' := by
  simp only [Rows.Means, Command.meaning?_statement ht, Option.some.injEq, exists_eq_left',
    Rows.Executes]

theorem Rows.course_inText (ht : t.Apart) {r r' : Rows}
    {xs : List (Exchange fun _ : Command => Answer)} :
    r.Course t (xs.map (inText t)) r' ↔ r.Runs xs r' := by
  induction xs generalizing r with
  | nil => rfl
  | cons x xs ih =>
    rw [List.map_cons, Course, Runs]
    exact exists_congr fun m => and_congr (means_statement ht) ih

theorem overhear_inText (qs : List Command) (s : σ) :
    Dialogue.overhear server (qs.map (·.statement t)) s =
      ((Dialogue.overhear (fun c => server (c.statement t)) qs s).1.map (inText t),
        (Dialogue.overhear (fun c => server (c.statement t)) qs s).2) := by
  induction qs generalizing s with
  | nil => rfl
  | cons q qs ih =>
    simp only [List.map_cons, Dialogue.overhear, ih]
    rfl

variable (t server) in
theorem amid_inText (d : Conversation α) (os : List (List Command)) (s : σ) :
    let x := d.amid (fun c => server (c.statement t)) os s
    (statements t d).amid server (os.map (·.map (·.statement t))) s =
      ((x.1.1, x.1.2.map fun y => (y.1, inText t y.2)), x.2) := by
  induction d generalizing os s with
  | done a => rfl
  | note n d ih => exact ih os s
  | ask q next ih =>
    have hask : statements t (.ask q next) =
        .ask (q.statement t) fun r => statements t (next r) := rfl
    have hhead : (os.map (·.map (·.statement t))).headD [] =
        (os.headD []).map (·.statement t) := by cases os <;> rfl
    simp only [hask, Dialogue.amid, hhead, overhear_inText, ← List.map_tail, ih, List.map_append,
      List.map_map, List.map_cons]
    rfl

theorem others_inText (h : List (Bool × Exchange fun _ : Command => Answer)) :
    others (h.map fun x => (x.1, inText t x.2)) = (others h).map (inText t) := by
  rw [others, others, List.filterMap_map, List.map_filterMap]
  refine List.filterMap_congr fun x _ => ?_
  obtain ⟨own, x⟩ := x
  cases own <;> rfl

def amidst (t : Tables) (server : Statement → σ → Answer × σ) (k : StoreCall) (qs : List Command)
    (s : σ) : (k.Result × List (Bool × Exchange fun _ : Statement => Answer)) × σ :=
  (statements t (perform k)).amid server [[], qs.map (·.statement t)] s

variable (t server) in
theorem amidst_eq (k : StoreCall) (qs : List Command) (s : σ) :
    let x := (perform k).amid (fun c => server (c.statement t)) [[], qs] s
    (amidst t server k qs s).1.1 = x.1.1 ∧
      others (amidst t server k qs s).1.2 = (others x.1.2).map (inText t) ∧
      (amidst t server k qs s).2 = x.2 := by
  intro x
  have h := amid_inText t server (perform k) [[], qs] s
  rw [amidst, show [[], qs.map (·.statement t)] = [[], qs].map (·.map (·.statement t)) from rfl, h]
  exact ⟨rfl, others_inText _, rfl⟩

theorem amidst_serve (ht : t.Apart) (k : StoreCall) (qs : List Command) (r : Rows) :
    (amidst t (Rows.serve t) k qs r).2 =
      ((perform k).amid (fun c r => (r.outcome c).settle r) [[], qs] r).2 := by
  have hserver : (fun c : Command => Rows.serve t (c.statement t)) =
      fun c r => (r.outcome c).settle r :=
    funext fun c => funext fun r => serve_statement ht c r
  rw [← hserver]
  exact (amidst_eq t (Rows.serve t) k qs r).2.2

/-- A call among others answers, and leaves the tables, as it would on a store in memory at one
moment between its statements: what others did before led there, and what they did after leads on
from it with the same answers. -/
def TakesPlace (t : Tables) (server : Statement → σ → Answer × σ) (view : σ → Rows) (k : StoreCall)
    (qs : List Command) (s : σ) : Prop :=
  let x := amidst t server k qs s
  ∃ (before after : List (Exchange fun _ : Statement => Answer)) (m m' : Rows) (st : Store),
    others x.1.2 = before ++ after ∧ (view s).Course t before m ∧ m.Represents st ∧
      x.1.1 = (Store.apply k st).1 ∧ m'.Represents (Store.apply k st).2 ∧
        m'.permissions = m.permissions ∧ m'.Course t after (view x.2)

theorem Linearizes.takesPlace {k : StoreCall} {qs : List Command} (ht : t.Apart)
    (h : Linearizes (fun c => server (c.statement t)) view k qs s) :
    TakesPlace t server view k qs s := by
  obtain ⟨before, after, m, m', st, hothers, hb, hm, hres, hm', hperms, ha⟩ := h
  obtain ⟨hend, hsaid, hlast⟩ := amidst_eq t server k qs s
  refine ⟨before.map (inText t), after.map (inText t), m, m', st, ?_,
    (Rows.course_inText ht).2 hb, hm, hend.trans hres, hm', hperms, ?_⟩
  · rw [hsaid, hothers, List.map_append]
  · rw [hlast]
    exact (Rows.course_inText ht).2 ha

/-- With a server that does what each text means, grants and listings take place at one moment
between their two statements, whatever others do in between. A permission that was made anew
meanwhile is neither granted nor listed under the row that it had. -/
theorem two_statements_linearize (ht : t.Apart) (hs : Serves (Issued t) t server view)
    (hv : (view s).Valid) (p : Permission) (qs : List Command) :
    (∀ r, TakesPlace t server view (.grant p r) qs s) ∧
    TakesPlace t server view (.grantedRoles p) qs s ∧
    ∀ id id', ⟨id, p⟩ ∈ (view s).permissions → id ≠ id' →
      (∀ r, let x := amidst t server (.grant p r) qs s
        ⟨id', p⟩ ∈ (view x.2).permissions →
          x.1.1 = .error (.notFound p) ∧ (view s).Course t (others x.1.2) (view x.2)) ∧
      let x := amidst t server (.grantedRoles p) qs s
      ⟨id', p⟩ ∈ (view x.2).permissions →
        x.1.1 = .ok [] ∧ (view s).Course t (others x.1.2) (view x.2) := by
  have hp : Obeys (fun c => server (c.statement t)) view := fun c s => hs.executes ht ⟨c, rfl⟩ s
  refine ⟨fun r => (linearizes_grant hp hv r qs).takesPlace ht,
    (linearizes_grantedRoles hp hv qs).takesPlace ht, fun id id' hid hne => ⟨?_, ?_⟩⟩
  · intro r x hid'
    obtain ⟨hend, hsaid, hlast⟩ := amidst_eq t server (.grant p r) qs s
    rw [hend, hsaid, hlast, Rows.course_inText ht]
    rw [hlast] at hid'
    obtain ⟨u, hruns, ⟨hrow, -, hperms, -⟩ | ⟨-, hres, hsame, -⟩⟩ := grant_of_found hp hv hid r qs
    · rw [hperms] at hid'
      exact absurd ((hruns.valid hv).id_unique hrow hid') hne
    · exact ⟨hres, hsame ▸ hruns⟩
  · intro x hid'
    obtain ⟨hend, hsaid, hlast⟩ := amidst_eq t server (.grantedRoles p) qs s
    rw [hend, hsaid, hlast, Rows.course_inText ht]
    rw [hlast] at hid'
    obtain ⟨hruns, before, after, m, -, -, -, -, hres, hgone⟩ := listing_of_found hp hv hid qs
    have hrow := fun hrow => hne ((hruns.valid hv).id_unique hrow hid')
    rw [hgone hrow] at hres
    exact ⟨hres, hruns⟩

theorem two_statements_linearize_recreated :
    let t := Tables.ofConfig .standard
    let p : Permission := ⟨"dashboard-1", "view"⟩
    let s : Rows := ⟨[⟨1, p⟩], [⟨1, "dev"⟩], [1]⟩
    let qs : List Command := [.deleteGrants p, .deletePermission p, .insertPermission p]
    t.Apart ∧ Serves (Issued t) t (Rows.serve t) id ∧ s.Valid ∧
      TakesPlace t (Rows.serve t) id (.grant p ⟨"ops", "Operators"⟩) qs s ∧
      (amidst t (Rows.serve t) (.grant p ⟨"ops", "Operators"⟩) qs s).1.1 = .error (.notFound p) ∧
      (amidst t (Rows.serve t) (.grantedRoles p) qs s).1.1 = .ok [] ∧
      (amidst t (Rows.serve t) (.grant p ⟨"ops", "Operators"⟩) qs s).2 =
        ⟨[⟨2, p⟩], [], [2, 1]⟩ := by
  intro t p s qs
  have hs := serve_serves (Issued t) t
  have hv : s.Valid := ⟨by decide, by decide, by decide, by decide, by decide⟩
  have hgrant : (amidst t (Rows.serve t) (.grant p ⟨"ops", "Operators"⟩) qs s).2 =
      ⟨[⟨2, p⟩], [], [2, 1]⟩ := by
    rw [amidst_serve standard_apart]
    decide +kernel
  have hlisting : (amidst t (Rows.serve t) (.grantedRoles p) qs s).2 =
      ⟨[⟨2, p⟩], [], [2, 1]⟩ := by
    rw [amidst_serve standard_apart]
    decide +kernel
  obtain ⟨hplace, -, hanew⟩ := two_statements_linearize standard_apart hs hv p qs
  obtain ⟨hgranted, hlisted⟩ := hanew 1 2 List.mem_cons_self (by decide)
  refine ⟨standard_apart, hs, hv, hplace _, ?_, ?_, hgrant⟩
  · refine (hgranted ⟨"ops", "Operators"⟩ ?_).1
    rw [hgrant]
    exact List.mem_cons_self
  · refine (hlisted ?_).1
    rw [hlisting]
    exact List.mem_cons_self

end AccessControl.Postgres
