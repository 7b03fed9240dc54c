import AccessControl.Proofs.Postgres.Linearization

/-!
# The count of a refusal

A permission that is granted is not deleted, and the refusal says how many roles hold it. The count
is that of a second statement, so it tells what holds at that moment: if others have withdrawn all
grants since the refusal, it is the count of a permission that no role holds.
-/

namespace AccessControl

namespace Dialogue

variable {Q σ : Type} {R : Q → Type}

/-- The states that a peer comes through while others speak to it, the first and the last of them
included. -/
def passes (peer : (q : Q) → σ → R q × σ) : List Q → σ → List σ
  | [], s => [s]
  | q :: qs, s => s :: passes peer qs (peer q s).2

theorem overhear_mem_passes (peer : (q : Q) → σ → R q × σ) (qs : List Q) (s : σ) :
    (overhear peer qs s).2 ∈ passes peer qs s := by
  induction qs generalizing s with
  | nil => exact List.mem_singleton_self s
  | cons q qs ih => exact List.mem_cons_of_mem s (ih (peer q s).2)

end Dialogue

namespace Postgres

open Sql

namespace Rows

variable {t : Rows} {p : Permission} {n : Nat}

def Held (t : Rows) (p : Permission) : Prop :=
  ∃ id role, ⟨id, p⟩ ∈ t.permissions ∧ ⟨id, role⟩ ∈ t.grants

def HeldBy (t : Rows) (p : Permission) (n : Nat) : Prop :=
  ∃ id, ⟨id, p⟩ ∈ t.permissions ∧ (t.holders id).length = n

theorem mem_referenced {g : GrantRow} :
    g ∈ t.referenced p ↔ g ∈ t.grants ∧ ⟨g.permissionId, p⟩ ∈ t.permissions := by
  rw [referenced, List.mem_filter, decide_eq_true_eq, mem_ids]

theorem held_iff : t.Held p ↔ t.referenced p ≠ [] := by
  constructor
  · intro h hnone
    obtain ⟨id, role, hid, hg⟩ := h
    have hmem : ⟨id, role⟩ ∈ t.referenced p := mem_referenced.2 ⟨hg, hid⟩
    rw [hnone] at hmem
    cases hmem
  · intro h
    obtain ⟨g, hg⟩ := List.exists_mem_of_ne_nil _ h
    obtain ⟨hg, hid⟩ := mem_referenced.1 hg
    exact ⟨g.permissionId, g.role, hid, hg⟩

theorem Valid.heldBy_of_held (hv : t.Valid) (h : t.Held p) :
    t.HeldBy p (t.referenced p).length := by
  obtain ⟨id, role, hid, -⟩ := h
  have hlen := hv.represents_store.length_referenced (hv.roles?_store hid)
  exact ⟨id, hid, hlen.symm⟩

end Rows

section

variable {σ : Type} {peer : Command → σ → Answer × σ} {view : σ → Rows} {s : σ} {p : Permission}
  {qs : List Command}

/-- The tables at each moment between the two statements of a deletion. -/
def moments (peer : Command → σ → Answer × σ) (view : σ → Rows) (p : Permission)
    (qs : List Command) (s : σ) : List Rows :=
  (Dialogue.passes peer qs (peer (.deletePermission p) s).2).map view

theorem delete_of_unheld (hp : Obeys peer view) (h : ¬ (view s).Held p) :
    let x := (perform (.delete p)).amid peer [[], qs] s
    x.1.1 = .ok () ∨ x.1.1 = .error (.notFound p) := by
  have hnone : (view s).referenced p = [] := not_not.1 (mt Rows.held_iff.2 h)
  have hx := hp (.deletePermission p) s
  simp only [Rows.Executes, Rows.outcome, if_pos hnone] at hx
  obtain ⟨⟨vs, ha⟩, -⟩ := hx
  simp only [perform, opening, body, delete, List.foldr_cons, List.foldr_nil, Dialogue.amid,
    Dialogue.overhear, List.headD_cons, ha]
  split
  · exact .inr rfl
  · exact .inl rfl

theorem delete_of_held (hp : Obeys peer view) (hv : (view s).Valid) (h : (view s).Held p) :
    let x := (perform (.delete p)).amid peer [[], qs] s
    (view x.2).Valid ∧ view x.2 ∈ moments peer view p qs s ∧
      x.1.1 = .error (.stillGranted p ((view x.2).referenced p).length) := by
  intro x
  have hx := hp (.deletePermission p) s
  simp only [Rows.Executes, Rows.outcome, if_neg (Rows.held_iff.1 h)] at hx
  obtain ⟨⟨text, ha⟩, hsame⟩ := hx
  -- the tables are as they were when the others begin, and a count leaves them alone
  have hruns := runs_overhear hp qs (peer (.deletePermission p) s).2
  rw [hsame] at hruns
  have hmem : view (Dialogue.overhear peer qs (peer (.deletePermission p) s).2).2 ∈
      moments peer view p qs s :=
    List.mem_map_of_mem (Dialogue.overhear_mem_passes peer qs _)
  have hu := hruns.valid hv
  generalize ho : Dialogue.overhear peer qs (peer (.deletePermission p) s).2 = o at hmem hu
  obtain ⟨⟨n, hcount⟩, hlast⟩ := Outcome.allows_gives_singleton.1 (hp (.countGrants p) o.2)
  rw [hu.joined_eq p] at hcount
  have hread : Except.bind (ε := Failure) (.ok ⟨[.int ((view o.2).referenced p).length], n⟩)
      (Table.required Value.int?) = .ok (((view o.2).referenced p).length : Int) := rfl
  have hend : x.2 = (peer (.countGrants p) o.2).2 ∧
      x.1.1 = .error (.stillGranted p ((view o.2).referenced p).length) := by
    simp only [x, perform, opening, body, delete, stillGranted, List.foldr_cons, List.foldr_nil,
      Dialogue.amid, Dialogue.overhear, List.headD_cons, List.tail_cons, ha, Failure.hasCode,
      beq_self_eq_true, if_true, ho, hcount, hread]
    exact ⟨trivial, rfl⟩
  rw [hend.1, hend.2, hlast]
  exact ⟨hu, hmem, rfl⟩

/-- With a server that executes each statement at once, a deletion is refused exactly if the
permission is held when it is tried. The refusal is true, in that at some moment between the two
statements exactly as many roles held the permission as it says, and at least one, exactly if the
permission is still held when its grants are counted; else the refusal speaks of no roles. -/
theorem refusal_true_iff_held (hp : Obeys peer view) (hv : (view s).Valid) (p : Permission)
    (qs : List Command) :
    let x := (perform (.delete p)).amid peer [[], qs] s
    ((∃ q n, x.1.1 = .error (.stillGranted q n)) ↔ (view s).Held p) ∧
    ∀ q n, x.1.1 = .error (.stillGranted q n) →
      q = p ∧ view x.2 ∈ moments peer view p qs s ∧
      ((∃ m ∈ moments peer view p qs s, m.HeldBy p n ∧ 1 ≤ n) ↔ (view x.2).Held p) ∧
      (n = 0 ↔ ¬ (view x.2).Held p) := by
  intro x
  by_cases h : (view s).Held p
  · obtain ⟨hu, hmem, hend⟩ : (view x.2).Valid ∧ view x.2 ∈ moments peer view p qs s ∧
        x.1.1 = .error (.stillGranted p ((view x.2).referenced p).length) :=
      delete_of_held hp hv h
    refine ⟨iff_of_true ⟨p, _, hend⟩ h, ?_⟩
    intro q n hx
    rw [hend] at hx
    cases hx
    have hheld : (view x.2).Held p ↔ 1 ≤ ((view x.2).referenced p).length := by
      rw [Rows.held_iff, Nat.one_le_iff_ne_zero, ne_eq, ne_eq, List.length_eq_zero_iff]
    refine ⟨rfl, hmem, ⟨?_, ?_⟩, ?_⟩
    · intro hm
      obtain ⟨m, -, -, hlen⟩ := hm
      exact hheld.2 hlen
    · intro hstill
      exact ⟨_, hmem, hu.heldBy_of_held hstill, hheld.1 hstill⟩
    · rw [hheld]
      omega
  · have hend : x.1.1 = .ok () ∨ x.1.1 = .error (.notFound p) := delete_of_unheld hp h
    have hnot (q : Permission) (n : Nat) : x.1.1 ≠ .error (.stillGranted q n) := by
      rcases hend with hend | hend <;> rw [hend] <;> nofun
    refine ⟨iff_of_false ?_ h, fun q n hx => absurd hx (hnot q n)⟩
    intro hx
    obtain ⟨q, n, hx⟩ := hx
    exact hnot q n hx

theorem refusal_true_iff_held_withdrawn :
    let t := Tables.ofConfig .standard
    let peer : Command → Rows → Answer × Rows := fun q s => Rows.serve t (q.statement t) s
    let p : Permission := ⟨"dashboard-1", "view"⟩
    let s : Rows := ⟨[⟨1, p⟩], [⟨1, "dev"⟩], [1]⟩
    Obeys peer id ∧ s.Valid ∧
      ((perform (.delete p)).amid peer [[], [.deleteGrants p]] s).1.1 =
        .error (.stillGranted p 0) ∧
      (¬ ∃ m ∈ moments peer id p [.deleteGrants p] s, m.HeldBy p 0 ∧ 1 ≤ 0) ∧
      ((perform (.delete p)).amid peer [[], [.insertGrant 1 "ops"]] s).1.1 =
        .error (.stillGranted p 2) ∧
      ∃ m ∈ moments peer id p [.insertGrant 1 "ops"] s, m.HeldBy p 2 ∧ 1 ≤ 2 := by
  intro t peer p s
  have hp : Obeys peer id := by
    intro q s
    exact (serve_serves (fun _ => True) t).executes standard_apart trivial s
  have hpeer : peer = fun q r => (r.outcome q).settle r :=
    funext fun q => funext fun r => serve_statement standard_apart q r
  have hv : s.Valid := ⟨by decide, by decide, by decide, by decide, by decide⟩
  have hnone : ((perform (.delete p)).amid peer [[], [.deleteGrants p]] s).1.1 =
      .error (.stillGranted p 0) := by
    rw [hpeer]
    decide +kernel
  have htwo : ((perform (.delete p)).amid peer [[], [.insertGrant 1 "ops"]] s).1.1 =
      .error (.stillGranted p 2) := by
    rw [hpeer]
    decide +kernel
  obtain ⟨-, hwithdrawn⟩ := refusal_true_iff_held hp hv p [.deleteGrants p]
  obtain ⟨-, hgranted⟩ := refusal_true_iff_held hp hv p [.insertGrant 1 "ops"]
  obtain ⟨-, -, htrue, hzero⟩ := hwithdrawn p 0 hnone
  obtain ⟨-, -, htrue', hzero'⟩ := hgranted p 2 htwo
  have hstill := not_imp_comm.1 hzero'.2 (by decide)
  exact ⟨hp, hv, hnone, fun hm => hzero.1 rfl (htrue.1 hm), htwo, htrue'.2 hstill⟩

end

end Postgres

end AccessControl
