import AccessControl.Proofs.Postgres.Agreement

/-!
# Calls of two statements among others

Others may speak to the server between the two statements of a call, and what was found first may be
gone by then. Yet the call answers, and leaves the tables, as if it had been made at one moment in
between: at one of its statements, or just before or just after its permission was deleted.
-/

namespace AccessControl

namespace Dialogue

variable {Q : Type} {R : Q → Type} {α σ : Type}

def overhear (peer : (q : Q) → σ → R q × σ) : List Q → σ → List (Exchange R) × σ
  | [], s => ([], s)
  | q :: qs, s =>
    let (r, s) := peer q s
    let (t, s) := overhear peer qs s
    (⟨q, r⟩ :: t, s)

/-- A dialogue with a peer that others speak to before each of its questions: how it ends, and all
exchanges in order, marked where they are its own. -/
def amid (peer : (q : Q) → σ → R q × σ) :
    Dialogue Q R α → List (List Q) → σ → (α × List (Bool × Exchange R)) × σ
  | .done a, _, s => ((a, []), s)
  | .note _ d, os, s => d.amid peer os s
  | .ask q next, os, s =>
    let (t, s) := overhear peer (os.headD []) s
    let (r, s) := peer q s
    let ((a, h), s) := (next r).amid peer os.tail s
    ((a, t.map (fun x => (false, x)) ++ (true, ⟨q, r⟩) :: h), s)

def others (h : List (Bool × Exchange R)) : List (Exchange R) :=
  h.filterMap fun x => if x.1 then none else some x.2

end Dialogue

namespace Postgres

open Sql
open Dialogue (Exchange others)

namespace Rows

def Runs : Rows → List (Exchange fun _ : Command => Answer) → Rows → Prop
  | t, [], t' => t' = t
  | t, x :: xs, t' => ∃ m, t.Executes x.1 x.2 m ∧ Runs m xs t'

variable {t t' m : Rows} {st : Store} {p : Permission} {id : Int} {q : Command} {a : Answer}
  {xs ys : List (Exchange fun _ : Command => Answer)}

theorem runs_append : t.Runs (xs ++ ys) t' ↔ ∃ m, t.Runs xs m ∧ m.Runs ys t' := by
  induction xs generalizing t with
  | nil => simp [Runs]
  | cons x xs ih =>
    simp only [List.cons_append, Runs, ih]
    constructor
    · intro h
      obtain ⟨u, hx, m, hu, hm⟩ := h
      exact ⟨m, ⟨u, hx, hu⟩, hm⟩
    · intro h
      obtain ⟨m, ⟨u, hx, hu⟩, hm⟩ := h
      exact ⟨u, hx, m, hu, hm⟩

theorem Runs.valid (h : t.Runs xs t') (hv : t.Valid) : t'.Valid := by
  induction xs generalizing t with
  | nil => exact h ▸ hv
  | cons x xs ih =>
    obtain ⟨m, hx, hm⟩ := h
    exact ih hm (hx.valid hv)

theorem Executes.permissions (h : t.Executes q a t') :
    (t'.permissions = t.permissions ∧ t'.used = t.used) ∨
    (∃ i r, i ∉ t.used ∧ t'.permissions = t.permissions ++ [⟨i, r⟩] ∧ t'.used = i :: t.used) ∨
    ∃ r, t.referenced r = [] ∧ t'.permissions = t.permissions.filter (fun x => x.permission ≠ r) ∧
      t'.used = t.used := by
  cases q with
  | insertPermission r =>
    simp only [Executes, outcome] at h
    split at h
    · obtain ⟨i, hi, -, rfl⟩ := h
      exact .inr (.inl ⟨i, r, hi, rfl, rfl⟩)
    · exact .inl (h.2 ▸ ⟨rfl, rfl⟩)
  | deletePermission r =>
    simp only [Executes, outcome] at h
    split at h
    · rename_i hr
      exact .inr (.inr (h.2 ▸ ⟨r, hr, rfl, rfl⟩))
    · exact .inl (h.2 ▸ ⟨rfl, rfl⟩)
  | insertGrant i role =>
    simp only [Executes, outcome] at h
    split at h
    · exact .inl (h.2 ▸ ⟨rfl, rfl⟩)
    · split at h <;> exact .inl (h.2 ▸ ⟨rfl, rfl⟩)
  | _ => exact .inl (h.2 ▸ ⟨rfl, rfl⟩)

theorem Executes.insertGrant_permissions {role : String}
    (h : t.Executes (.insertGrant id role) a t') : t'.permissions = t.permissions := by
  simp only [Executes, outcome] at h
  split at h
  · rw [h.2]
  · split at h <;> rw [h.2]

theorem Executes.row_kept_or_deleted (h : t.Executes q a t') (hid : ⟨id, p⟩ ∈ t.permissions) :
    ⟨id, p⟩ ∈ t'.permissions ∨ (t.referenced p = [] ∧ t'.ids p = []) := by
  rcases h.permissions with ⟨hp, -⟩ | ⟨i, r, -, hp, -⟩ | ⟨r, hr, hp, -⟩
  · exact .inl (hp ▸ hid)
  · exact .inl (hp ▸ List.mem_append_left _ hid)
  · by_cases hpr : p = r
    · subst hpr
      refine .inr ⟨hr, ids_eq_nil.2 fun i hi => ?_⟩
      rw [hp, List.mem_filter] at hi
      simp at hi
    · refine .inl ?_
      rw [hp, List.mem_filter]
      exact ⟨hid, by simpa using hpr⟩

theorem Runs.id_kept (h : t.Runs xs t') (hid : id ∈ t.used)
    (honly : ∀ r, ⟨id, r⟩ ∈ t.permissions → r = p) (r : Permission)
    (hr : ⟨id, r⟩ ∈ t'.permissions) : r = p := by
  induction xs generalizing t with
  | nil => exact honly r (h ▸ hr)
  | cons x xs ih =>
    obtain ⟨m, hx, hm⟩ := h
    rcases hx.permissions with ⟨hp, hu⟩ | ⟨i, r', hi, hp, hu⟩ | ⟨r', -, hp, hu⟩
    · exact ih hm (hu ▸ hid) (hp ▸ honly)
    · refine ih hm (hu ▸ List.mem_cons_of_mem i hid) fun r'' hr'' => ?_
      rw [hp] at hr''
      rcases List.mem_append.1 hr'' with hr'' | hr''
      · exact honly r'' hr''
      · cases List.mem_singleton.1 hr''
        exact absurd hid hi
    · refine ih hm (hu ▸ hid) fun r'' hr'' => ?_
      rw [hp] at hr''
      exact honly r'' (List.mem_filter.1 hr'').1

/-- If a row has gone, there was a moment at which its permission was there without grants, and
one right after it at which the permission was not there. -/
theorem Runs.exists_deletion (h : t.Runs xs t') (hid : ⟨id, p⟩ ∈ t.permissions)
    (hgone : ⟨id, p⟩ ∉ t'.permissions) :
    ∃ before x after m m', xs = before ++ x :: after ∧ t.Runs before m ∧ m.Executes x.1 x.2 m' ∧
      m'.Runs after t' ∧ ⟨id, p⟩ ∈ m.permissions ∧ m.referenced p = [] ∧ m'.ids p = [] := by
  induction xs generalizing t with
  | nil => exact absurd (h ▸ hid) hgone
  | cons x xs ih =>
    obtain ⟨u, hx, hu⟩ := h
    rcases hx.row_kept_or_deleted hid with hid' | ⟨hnone, hids⟩
    · obtain ⟨before, y, after, m, m', rfl, hb, hy, ha, hm⟩ := ih hu hid'
      exact ⟨x :: before, y, after, m, m', rfl, ⟨u, hx, hb⟩, hy, ha, hm⟩
    · exact ⟨[], x, xs, t, u, rfl, rfl, hx, hu, hid, hnone, hids⟩

def holders (t : Rows) (id : Int) : RoleSet :=
  ((t.grants.filter fun g => g.permissionId = id).map (·.role)).foldr RoleSet.insert []

def store (t : Rows) : Store := ⟨t.permissions.map fun r => (r.permission, t.holders r.id)⟩

theorem holders_sorted (t : Rows) (id : Int) : (t.holders id).Sorted := by
  rw [holders]
  induction (t.grants.filter fun g => g.permissionId = id).map (·.role) with
  | nil => exact List.Pairwise.nil
  | cons x xs ih => exact ih.insert

theorem mem_holders {role : String} : role ∈ t.holders id ↔ ⟨id, role⟩ ∈ t.grants := by
  have hfold (xs : List String) : role ∈ xs.foldr RoleSet.insert [] ↔ role ∈ xs := by
    induction xs with
    | nil => exact Iff.rfl
    | cons x xs ih => rw [List.foldr_cons, RoleSet.mem_insert, ih, List.mem_cons]
  rw [holders, hfold]
  simp only [List.mem_map, List.mem_filter, decide_eq_true_eq]
  constructor
  · intro h
    obtain ⟨g, ⟨hg, rfl⟩, rfl⟩ := h
    exact hg
  · exact fun h => ⟨_, ⟨h, rfl⟩, rfl⟩

theorem roles?_store (t : Rows) (p : Permission) :
    (t.permissions.find? fun r => r.permission = p).map (fun r => t.holders r.id) =
      t.store.roles? p := by
  rw [Store.roles?, store]
  induction t.permissions with
  | nil => rfl
  | cons r rs ih =>
    rw [List.find?_cons, List.map_cons, Store.lookup]
    by_cases hr : r.permission = p
    · simp only [hr, decide_true, if_true, Option.map_some]
    · simp only [hr, decide_false, if_false]
      exact ih

theorem Valid.represents_store (hv : t.Valid) : t.Represents t.store := by
  refine ⟨hv, fun p => ?_⟩
  rw [← roles?_store]
  cases hf : t.permissions.find? fun r => r.permission = p with
  | none =>
    intro id hid
    simpa using List.find?_eq_none.1 hf _ hid
  | some r =>
    obtain rfl : r.permission = p := by simpa using List.find?_some hf
    exact ⟨r.id, List.mem_of_find?_eq_some hf, t.holders_sorted r.id, fun _ => mem_holders⟩

theorem Valid.roles?_store (hv : t.Valid) (hid : ⟨id, p⟩ ∈ t.permissions) :
    t.store.roles? p = some (t.holders id) := by
  rw [← Rows.roles?_store]
  cases hf : t.permissions.find? fun r => r.permission = p with
  | none => simpa using List.find?_eq_none.1 hf _ hid
  | some r =>
    obtain ⟨i, q⟩ := r
    obtain rfl : q = p := by simpa using List.find?_some hf
    obtain rfl := hv.id_unique (List.mem_of_find?_eq_some hf) hid
    rfl

theorem roles?_store_eq_none (hp : t.ids p = []) : t.store.roles? p = none := by
  rw [← roles?_store, Option.map_eq_none_iff, List.find?_eq_none]
  intro r hr hrp
  rw [decide_eq_true_eq] at hrp
  exact ids_eq_nil.1 hp r.id (hrp ▸ hr)

variable {u : Rows} {r : Role}

theorem Runs.id_gone (h : t.Runs xs u) (hv : t.Valid) (hid : ⟨id, p⟩ ∈ t.permissions)
    (hgone : ⟨id, p⟩ ∉ u.permissions) : id ∉ u.permissions.map (·.id) := by
  intro hmem
  obtain ⟨⟨i, r⟩, hr, rfl⟩ := List.mem_map.1 hmem
  have hused : i ∈ t.used := hv.used i (List.mem_map.2 ⟨_, hid, rfl⟩)
  obtain rfl := h.id_kept hused (fun _ hr' => hv.permission_unique hr' hid) r hr
  exact hgone hr

/-- A grant under an id that was found before others came: it is recorded for the permission, or
there was a moment at which the permission was not there. -/
theorem Runs.insertGrant (h : t.Runs xs u) (hv : t.Valid) (hid : ⟨id, p⟩ ∈ t.permissions)
    (hx : u.Executes (.insertGrant id r.id) a t') :
    (⟨id, p⟩ ∈ u.permissions ∧ (∃ n, Affects n a) ∧ t'.permissions = u.permissions ∧
      t'.Represents (u.store.setRoles p (RoleSet.insert r.id (u.holders id)))) ∨
    (⟨id, p⟩ ∉ u.permissions ∧ Violates foreignKeyViolation a ∧ t' = u ∧
      ∃ before after m, xs = before ++ after ∧ t.Runs before m ∧ m.Runs after u ∧
        m.ids p = []) := by
  have hu := (h.valid hv).represents_store
  by_cases hrow : ⟨id, p⟩ ∈ u.permissions
  · obtain ⟨hn, hr⟩ := hu.insertGrant hrow ((h.valid hv).roles?_store hrow) hx
    exact .inl ⟨hrow, hn, hx.insertGrant_permissions, hr⟩
  · obtain ⟨ha, rfl⟩ := hu.insertGrant_gone (h.id_gone hv hid hrow) hx
    obtain ⟨before, x, after, m, m', rfl, hb, hx, hafter, -, -, hm⟩ := h.exists_deletion hid hrow
    refine .inr ⟨hrow, ha, rfl, before ++ [x], after, m', by simp, ?_, hafter, hm⟩
    exact runs_append.2 ⟨m, hb, m', hx, rfl⟩

/-- A listing under an id that was found before others came lists what the permission had at one
moment since. -/
theorem Runs.listRoles (h : t.Runs xs u) (hv : t.Valid) (hid : ⟨id, p⟩ ∈ t.permissions)
    (hx : u.Executes (.listRoles id) a t') :
    t' = u ∧ ∃ before after m, xs = before ++ after ∧ t.Runs before m ∧ m.Runs after u ∧
      ⟨id, p⟩ ∈ m.permissions ∧ Gives ((m.holders id).map .text) a ∧
      (⟨id, p⟩ ∉ u.permissions → m.holders id = []) := by
  have hu := (h.valid hv).represents_store
  by_cases hrow : ⟨id, p⟩ ∈ u.permissions
  · obtain ⟨rfl, ha⟩ := hu.listRoles hrow ((h.valid hv).roles?_store hrow) hx
    exact ⟨rfl, xs, [], t', by simp, h, rfl, hrow, ha, fun hn => absurd hrow hn⟩
  · obtain ⟨before, x, after, m, m', rfl, hb, hy, hafter, hm, hnone, -⟩ :=
      h.exists_deletion hid hrow
    have hempty : m.holders id = [] := by
      rw [List.eq_nil_iff_forall_not_mem]
      intro role hrole
      have hg : ⟨id, role⟩ ∈ m.referenced p := by
        rw [referenced, List.mem_filter, decide_eq_true_eq, mem_ids]
        exact ⟨mem_holders.1 hrole, hm⟩
      rw [hnone] at hg
      cases hg
    obtain ⟨⟨roles, hperm, -, ha⟩, rfl⟩ := hx
    have hroles : roles = [] := by
      have hgrants : (t'.grants.filter fun g => g.permissionId = id) = [] := by
        rw [List.filter_eq_nil_iff]
        intro g hg hgid
        rw [decide_eq_true_eq] at hgid
        exact h.id_gone hv hid hrow (hgid ▸ (h.valid hv).foreignKey g hg)
      rw [hgrants] at hperm
      exact hperm.eq_nil
    refine ⟨rfl, before, x :: after, m, rfl, hb, ⟨m', hy, hafter⟩, hm, ?_, fun _ => hempty⟩
    rw [hempty, ← hroles]
    exact ha

end Rows

def Obeys {σ : Type} (peer : Command → σ → Answer × σ) (view : σ → Rows) : Prop :=
  ∀ q s, (view s).Executes q (peer q s).1 (view (peer q s).2)

section

variable {σ α : Type} {peer : Command → σ → Answer × σ} {view : σ → Rows} {s : σ}
  {p : Permission} {r : Role} {qs : List Command}

theorem runs_overhear (hp : Obeys peer view) (qs : List Command) (s : σ) :
    (view s).Runs (Dialogue.overhear peer qs s).1 (view (Dialogue.overhear peer qs s).2) := by
  induction qs generalizing s with
  | nil => rfl
  | cons q qs ih => exact ⟨_, hp q s, ih _⟩

def Linearizes (peer : Command → σ → Answer × σ) (view : σ → Rows) (k : StoreCall)
    (qs : List Command) (s : σ) : Prop :=
  let x := (perform k).amid peer [[], qs] s
  ∃ (before after : List (Exchange fun _ : Command => Answer)) (m m' : Rows) (st : Store),
    others x.1.2 = before ++ after ∧ (view s).Runs before m ∧ m.Represents st ∧
      x.1.1 = (Store.apply k st).1 ∧ m'.Represents (Store.apply k st).2 ∧
        m'.permissions = m.permissions ∧ m'.Runs after (view x.2)

theorem amid_withId_none {next : Int → Conversation (Except StoreError α)} (hp : Obeys peer view)
    (hids : (view s).ids p = []) :
    let x := (withId p next).amid peer [[], qs] s
    x.1.1 = .error (.notFound p) ∧ others x.1.2 = [] ∧ view x.2 = view s := by
  obtain ⟨⟨ids, hperm, n, ha⟩, hview⟩ := hp (.findPermission p) s
  rw [hids] at hperm
  rw [hperm.eq_nil] at ha
  simp only [withId, Dialogue.amid, Dialogue.overhear, List.headD_cons, ha]
  exact ⟨rfl, rfl, hview⟩

theorem amid_withId_some {id : Int} (q : Int → Command)
    (next : Int → Answer → Conversation (Except StoreError α)) (qs : List Command)
    (hp : Obeys peer view) (hv : (view s).Valid) (hid : ⟨id, p⟩ ∈ (view s).permissions) :
    ∃ o : List (Exchange fun _ : Command => Answer) × σ, (view s).Runs o.1 (view o.2) ∧
      ∀ res, next id (peer (q id) o.2).1 = .done res →
        let x := (withId p fun id => .ask (q id) (next id)).amid peer [[], qs] s
        x.1.1 = res ∧ others x.1.2 = o.1 ∧ x.2 = (peer (q id) o.2).2 := by
  obtain ⟨⟨ids, hperm, n, ha⟩, hview⟩ := hp (.findPermission p) s
  rw [hv.ids_eq hid] at hperm
  rw [List.perm_singleton.1 hperm] at ha
  have hruns := runs_overhear hp qs (peer (.findPermission p) s).2
  rw [hview] at hruns
  refine ⟨Dialogue.overhear peer qs (peer (.findPermission p) s).2, hruns, ?_⟩
  intro res hres
  have hfound : Except.bind (ε := Failure) (.ok ⟨[.int id], n⟩)
      (Table.optional Value.int?) = .ok (some id) := rfl
  simp only [withId, Dialogue.amid, Dialogue.overhear, List.headD_cons, ha, hfound, List.tail_cons,
    hres]
  exact ⟨trivial, by simp [others], trivial⟩

def grantEnd (p : Permission) (r : Role) (id : Int) : Answer → Conversation (Except StoreError Unit)
  | .ok _ => .done (.ok ())
  | .error f =>
    if f.hasCode foreignKeyViolation then .done (.error (.notFound p))
    else storageError (.insertGrant id r.id) f

theorem grant_eq : grant p r = withId p fun id => .ask (.insertGrant id r.id) (grantEnd p r id) :=
  rfl

def listingEnd (id : Int) (a : Answer) : Conversation (Except StoreError (List String)) :=
  match a.bind (Table.all Value.text?) with
  | .error f => storageError (.listRoles id) f
  | .ok ids => .done (.ok ids)

theorem grantedRoles_eq :
    grantedRoles p = withId p fun id => .ask (.listRoles id) (listingEnd id) :=
  rfl

theorem listingEnd_eq {id : Int} {xs : List String} {a : Answer} (ha : Gives (xs.map .text) a) :
    listingEnd id a = .done (.ok xs) := by
  obtain ⟨n, rfl⟩ := ha
  have hread : Table.all Value.text? ⟨xs.map .text, n⟩ = .ok xs := readRows_text xs
  simp only [listingEnd, Except.bind, hread]

theorem linearizes_of_absent {k : StoreCall} (hv : (view s).Valid)
    (hx : let x := (perform k).amid peer [[], qs] s
      x.1.1 = (Store.apply k (view s).store).1 ∧ others x.1.2 = [] ∧ view x.2 = view s)
    (hk : (Store.apply k (view s).store).2 = (view s).store) : Linearizes peer view k qs s := by
  obtain ⟨hres, hothers, hview⟩ := hx
  refine ⟨[], [], view s, view s, (view s).store, hothers, rfl, hv.represents_store, hres, ?_, rfl,
    hview⟩
  rw [hk]
  exact hv.represents_store

theorem grant_of_found {id : Int} (hp : Obeys peer view) (hv : (view s).Valid)
    (hid : ⟨id, p⟩ ∈ (view s).permissions) (r : Role) (qs : List Command) :
    let x := (perform (.grant p r)).amid peer [[], qs] s
    ∃ u : Rows, (view s).Runs (others x.1.2) u ∧
      ((⟨id, p⟩ ∈ u.permissions ∧ x.1.1 = .ok () ∧ (view x.2).permissions = u.permissions ∧
        (view x.2).Represents (u.store.setRoles p (RoleSet.insert r.id (u.holders id)))) ∨
      (⟨id, p⟩ ∉ u.permissions ∧ x.1.1 = .error (.notFound p) ∧ view x.2 = u ∧
        ∃ before after m, others x.1.2 = before ++ after ∧ (view s).Runs before m ∧
          m.Runs after u ∧ m.ids p = [])) := by
  intro x
  obtain ⟨o, hruns, hend⟩ :=
    amid_withId_some (fun id => .insertGrant id r.id) (grantEnd p r) qs hp hv hid
  rw [← grant_eq] at hend
  refine ⟨view o.2, ?_⟩
  rcases hruns.insertGrant hv hid (hp (.insertGrant id r.id) o.2) with
    ⟨hrow, ⟨n, vs, ha⟩, hperms, hr⟩ | ⟨hrow, ⟨text, ha⟩, hsame, before, after, m, hxs, hmoment⟩
  · obtain ⟨hres, hothers, hlast⟩ := hend (.ok ()) (by rw [ha]; rfl)
    have hothers : others x.1.2 = o.1 := hothers
    have hlast : x.2 = (peer (.insertGrant id r.id) o.2).2 := hlast
    rw [hothers, hlast]
    exact ⟨hruns, .inl ⟨hrow, hres, hperms, hr⟩⟩
  · obtain ⟨hres, hothers, hlast⟩ := hend (.error (.notFound p)) (by rw [ha]; rfl)
    have hothers : others x.1.2 = o.1 := hothers
    have hlast : x.2 = (peer (.insertGrant id r.id) o.2).2 := hlast
    rw [hothers, hlast]
    exact ⟨hruns, .inr ⟨hrow, hres, hsame, before, after, m, hxs, hmoment⟩⟩

theorem listing_of_found {id : Int} (hp : Obeys peer view) (hv : (view s).Valid)
    (hid : ⟨id, p⟩ ∈ (view s).permissions) (qs : List Command) :
    let x := (perform (.grantedRoles p)).amid peer [[], qs] s
    (view s).Runs (others x.1.2) (view x.2) ∧
      ∃ before after m, others x.1.2 = before ++ after ∧ (view s).Runs before m ∧
        m.Runs after (view x.2) ∧ ⟨id, p⟩ ∈ m.permissions ∧ x.1.1 = .ok (m.holders id) ∧
        (⟨id, p⟩ ∉ (view x.2).permissions → m.holders id = []) := by
  intro x
  obtain ⟨o, hruns, hend⟩ := amid_withId_some .listRoles listingEnd qs hp hv hid
  rw [← grantedRoles_eq] at hend
  obtain ⟨hsame, before, after, m, hxs, hb, hm, hrow, ha, hgone⟩ :=
    hruns.listRoles hv hid (hp (.listRoles id) o.2)
  obtain ⟨hres, hothers, hlast⟩ := hend (.ok (m.holders id)) (listingEnd_eq ha)
  have hothers : others x.1.2 = o.1 := hothers
  have hview : view x.2 = view o.2 := (congrArg view hlast).trans hsame
  rw [hothers, hview]
  exact ⟨hruns, before, after, m, hxs, hb, hm, hrow, hres, hgone⟩

theorem linearizes_grant (hp : Obeys peer view) (hv : (view s).Valid) (r : Role)
    (qs : List Command) : Linearizes peer view (.grant p r) qs s := by
  cases hids : (view s).ids p with
  | nil =>
    have hnone : Store.apply (.grant p r) (view s).store =
        (.error (.notFound p), (view s).store) := by
      rw [Store.apply, Rows.roles?_store_eq_none hids]
    refine linearizes_of_absent hv ?_ (by rw [hnone])
    rw [hnone]
    exact amid_withId_none hp hids
  | cons id ids =>
    have hid : ⟨id, p⟩ ∈ (view s).permissions := Rows.mem_ids.1 (hids ▸ List.mem_cons_self)
    obtain ⟨u, hruns, ⟨hrow, hres, hperms, hr⟩ |
      ⟨-, hres, hsame, before, after, m, hxs, hb, hm, hnone⟩⟩ := grant_of_found hp hv hid r qs
    · -- the moment of the second statement
      have hvalid := hruns.valid hv
      have happly : Store.apply (.grant p r) u.store =
          (.ok (), u.store.setRoles p (RoleSet.insert r.id (u.holders id))) := by
        rw [Store.apply, hvalid.roles?_store hrow]
      refine ⟨_, [], u, _, u.store, (List.append_nil _).symm, hruns, hvalid.represents_store, ?_,
        ?_, hperms, rfl⟩
      · rw [happly]
        exact hres
      · rw [happly]
        exact hr
    · -- the moment after the permission was deleted
      have hrep := (hb.valid hv).represents_store
      have happly : Store.apply (.grant p r) m.store = (.error (.notFound p), m.store) := by
        rw [Store.apply, Rows.roles?_store_eq_none hnone]
      refine ⟨before, after, m, m, m.store, hxs, hb, hrep, ?_, ?_, rfl, hsame ▸ hm⟩
      · rw [happly]
        exact hres
      · rw [happly]
        exact hrep

theorem linearizes_grantedRoles (hp : Obeys peer view) (hv : (view s).Valid) (qs : List Command) :
    Linearizes peer view (.grantedRoles p) qs s := by
  cases hids : (view s).ids p with
  | nil =>
    have hnone : Store.apply (.grantedRoles p) (view s).store =
        (.error (.notFound p), (view s).store) := by
      rw [Store.apply, Rows.roles?_store_eq_none hids]
    refine linearizes_of_absent hv ?_ (by rw [hnone])
    rw [hnone]
    exact amid_withId_none hp hids
  | cons id ids =>
    have hid : ⟨id, p⟩ ∈ (view s).permissions := Rows.mem_ids.1 (hids ▸ List.mem_cons_self)
    obtain ⟨-, before, after, m, hxs, hb, hm, hrow, hres, -⟩ := listing_of_found hp hv hid qs
    have hrep := (hb.valid hv).represents_store
    have happly : Store.apply (.grantedRoles p) m.store = (.ok (m.holders id), m.store) := by
      rw [Store.apply, (hb.valid hv).roles?_store hrow]
    refine ⟨before, after, m, m, m.store, hxs, hb, hrep, ?_, ?_, rfl, hm⟩
    · rw [happly]
      exact hres
    · rw [happly]
      exact hrep

end

end Postgres

end AccessControl
