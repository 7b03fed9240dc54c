import AccessControl.Postgres.Store
import AccessControl.Proofs.Text.ByteOrder
import Mathlib.Data.List.Nodup

/-!
# The two tables

What the tables hold, and what a server does with them that executes each statement at once, keeps
their constraints and fails for no other reason. The ids that rows get, the texts of failures and
the order in which rows lie are left open.
-/

namespace AccessControl.Postgres

open Sql

structure PermissionRow where
  id : Int
  permission : Permission
deriving DecidableEq, Repr

structure GrantRow where
  permissionId : Int
  role : String
deriving DecidableEq, Repr

structure Rows where
  permissions : List PermissionRow
  grants : List GrantRow
  used : List Int
deriving DecidableEq, Repr

def Gives (vs : List Value) (a : Answer) : Prop := ∃ n, a = .ok ⟨vs, n⟩

def Affects (n : Nat) (a : Answer) : Prop := ∃ vs, a = .ok ⟨vs, n⟩

def Violates (code : String) (a : Answer) : Prop := ∃ text, a = .error (.database code text)

/-- What a statement comes to: values in rows of any order, texts in rows by their bytes, tables
that are left after some rows have changed, a new permission, or a violation. -/
inductive Outcome where
  | gives (vs : List Value)
  | lists (xs : List String)
  | leaves (affected : Nat) (t : Rows)
  | adds (p : Permission)
  | violates (code : String)
deriving DecidableEq, Repr

def Outcome.Allows (t : Rows) (a : Answer) (t' : Rows) : Outcome → Prop
  | gives vs => (∃ ws : List Value, ws.Perm vs ∧ Gives ws a) ∧ t' = t
  | lists xs =>
    (∃ ys : List String, ys.Perm xs ∧ ys.Pairwise Text.BytesLe ∧ Gives (ys.map .text) a) ∧ t' = t
  | leaves n u => Affects n a ∧ t' = u
  | adds p =>
    ∃ id, id ∉ t.used ∧ Affects 1 a ∧ t' = ⟨t.permissions ++ [⟨id, p⟩], t.grants, id :: t.used⟩
  | violates code => Violates code a ∧ t' = t

theorem Outcome.allows_gives_singleton {t t' : Rows} {a : Answer} {v : Value} :
    (Outcome.gives [v]).Allows t a t' ↔ Gives [v] a ∧ t' = t := by
  refine and_congr_left fun _ => ⟨?_, fun h => ⟨[v], .refl _, h⟩⟩
  rintro ⟨ws, hws, h⟩
  rwa [List.perm_singleton.1 hws] at h

namespace Rows

def ids (t : Rows) (p : Permission) : List Int :=
  (t.permissions.filter fun r => r.permission = p).map (·.id)

def joined (t : Rows) (p : Permission) : List GrantRow :=
  t.grants.flatMap fun g =>
    (t.permissions.filter fun r => r.id = g.permissionId ∧ r.permission = p).map fun _ => g

def referenced (t : Rows) (p : Permission) : List GrantRow :=
  t.grants.filter fun g => g.permissionId ∈ t.ids p

def outcome (t : Rows) : Command → Outcome
  | .createPermissions => .leaves 0 t
  | .createGrants => .leaves 0 t
  | .createIndex => .leaves 0 t
  | .findPermission p => .gives ((t.ids p).map .int)
  | .countGrants p => .gives [.int (t.joined p).length]
  | .insertPermission p => if t.ids p = [] then .adds p else .violates uniqueViolation
  | .deletePermission p =>
    if t.referenced p = [] then
      .leaves (t.ids p).length
        { t with permissions := t.permissions.filter fun r => r.permission ≠ p }
    else .violates foreignKeyViolation
  | .insertGrant id role =>
    if ⟨id, role⟩ ∈ t.grants then .leaves 0 t
    else if id ∈ t.permissions.map (·.id) then
      .leaves 1 { t with grants := t.grants ++ [⟨id, role⟩] }
    else .violates foreignKeyViolation
  | .deleteGrants p =>
    .leaves (t.referenced p).length
      { t with grants := t.grants.filter fun g => g.permissionId ∉ t.ids p }
  | .deleteGrant p role =>
    .leaves ((t.referenced p).filter fun g => g.role = role).length
      { t with grants := t.grants.filter fun g => ¬ (g.role = role ∧ g.permissionId ∈ t.ids p) }
  | .holdsAny p roles => .gives [.bool ((t.joined p).any fun g => roles.contains g.role)]
  | .listRoles id => .lists ((t.grants.filter fun g => g.permissionId = id).map (·.role))

/-- What the server answers to a statement, and the tables after it. -/
def Executes (t : Rows) (c : Command) (a : Answer) (t' : Rows) : Prop := (t.outcome c).Allows t a t'

structure Valid (t : Rows) : Prop where
  ids : (t.permissions.map (·.id)).Nodup
  permissions : (t.permissions.map (·.permission)).Nodup
  grants : t.grants.Nodup
  foreignKey : ∀ g ∈ t.grants, g.permissionId ∈ t.permissions.map (·.id)
  used : ∀ id ∈ t.permissions.map (·.id), id ∈ t.used

theorem valid_empty (used : List Int) : Valid ⟨[], [], used⟩ := by
  constructor <;> simp

variable {t t' : Rows} {p q : Permission} {id : Int} {a : Answer}

theorem mem_ids : id ∈ t.ids p ↔ ⟨id, p⟩ ∈ t.permissions := by
  simp only [ids, List.mem_map, List.mem_filter, decide_eq_true_eq]
  constructor
  · rintro ⟨r, ⟨hr, rfl⟩, rfl⟩
    exact hr
  · exact fun h => ⟨_, ⟨h, rfl⟩, rfl⟩

theorem ids_nodup (hv : t.Valid) (p : Permission) : (t.ids p).Nodup :=
  hv.ids.sublist (List.filter_sublist.map _)

theorem Valid.permission_unique (hv : t.Valid) (hp : ⟨id, p⟩ ∈ t.permissions)
    (hq : ⟨id, q⟩ ∈ t.permissions) : p = q := by
  have h := List.inj_on_of_nodup_map hv.ids hp hq rfl
  cases h
  rfl

theorem Valid.id_unique {id' : Int} (hv : t.Valid) (hp : ⟨id, p⟩ ∈ t.permissions)
    (hq : ⟨id', p⟩ ∈ t.permissions) : id = id' := by
  have h := List.inj_on_of_nodup_map hv.permissions hp hq rfl
  cases h
  rfl

theorem Valid.ids_eq (hv : t.Valid) (hp : ⟨id, p⟩ ∈ t.permissions) : t.ids p = [id] := by
  refine List.perm_singleton.1 ((List.perm_ext_iff_of_nodup (ids_nodup hv p)
    (List.nodup_singleton id)).2 fun i => ?_)
  rw [mem_ids, List.mem_singleton]
  exact ⟨fun hi => hv.id_unique hi hp, fun hi => hi ▸ hp⟩

theorem ids_eq_nil : t.ids p = [] ↔ ∀ id, ⟨id, p⟩ ∉ t.permissions := by
  rw [List.eq_nil_iff_forall_not_mem]
  exact forall_congr' fun id => not_congr mem_ids

theorem Valid.joined_eq (hv : t.Valid) (p : Permission) : t.joined p = t.referenced p := by
  -- ids differ, so that the join yields a grant once if at all
  have hrow (g : GrantRow) :
      ((t.permissions.filter fun r => r.id = g.permissionId ∧ r.permission = p).map fun _ => g) =
        if g.permissionId ∈ t.ids p then [g] else [] := by
    have hf : (fun r : PermissionRow => decide (r.id = g.permissionId ∧ r.permission = p)) =
        fun r => r == ⟨g.permissionId, p⟩ := by
      funext r
      obtain ⟨i, q⟩ := r
      rw [Bool.eq_iff_iff]
      simp
    rw [hf, List.filter_beq, List.Nodup.count hv.ids.of_map]
    simp only [mem_ids]
    split <;> simp
  simp only [joined, referenced, hrow]
  induction t.grants with
  | nil => rfl
  | cons g gs ih =>
    rw [List.flatMap_cons, ih, List.filter_cons]
    simp only [decide_eq_true_eq]
    split <;> rfl

theorem Valid.withGrants {gs : List GrantRow} (hv : t.Valid) (hn : gs.Nodup)
    (hk : ∀ g ∈ gs, g.permissionId ∈ t.permissions.map (·.id)) :
    Valid { t with grants := gs } :=
  ⟨hv.ids, hv.permissions, hn, hk, hv.used⟩

theorem Valid.filterGrants (hv : t.Valid) (keep : GrantRow → Bool) :
    Valid { t with grants := t.grants.filter keep } :=
  hv.withGrants (hv.grants.filter _) fun g hg => hv.foreignKey g (List.mem_filter.1 hg).1

theorem Valid.addGrant {role : String} (hv : t.Valid) (hg : ⟨id, role⟩ ∉ t.grants)
    (hid : id ∈ t.permissions.map (·.id)) :
    Valid { t with grants := t.grants ++ [⟨id, role⟩] } := by
  refine hv.withGrants ?_ fun g hm => ?_
  · rw [List.nodup_append_comm]
    exact List.nodup_cons.2 ⟨hg, hv.grants⟩
  · rcases List.mem_append.1 hm with hm | hm
    · exact hv.foreignKey g hm
    · rw [List.mem_singleton.1 hm]
      exact hid

theorem Valid.addPermission (hv : t.Valid) (hid : id ∉ t.used) (hp : t.ids p = []) :
    Valid ⟨t.permissions ++ [⟨id, p⟩], t.grants, id :: t.used⟩ := by
  have hfresh : id ∉ t.permissions.map (·.id) := fun h => hid (hv.used id h)
  have hnew : p ∉ t.permissions.map (·.permission) := by
    intro h
    obtain ⟨⟨i, q⟩, hr, rfl⟩ := List.mem_map.1 h
    exact ids_eq_nil.1 hp i hr
  refine ⟨?_, ?_, hv.grants, fun g hg => ?_, fun i hi => ?_⟩
  · rw [List.map_append, List.nodup_append_comm]
    exact List.nodup_cons.2 ⟨hfresh, hv.ids⟩
  · rw [List.map_append, List.nodup_append_comm]
    exact List.nodup_cons.2 ⟨hnew, hv.permissions⟩
  · rw [List.map_append]
    exact List.mem_append_left _ (hv.foreignKey g hg)
  · rw [List.map_append] at hi
    rcases List.mem_append.1 hi with hi | hi
    · exact List.mem_cons_of_mem _ (hv.used i hi)
    · rw [List.mem_singleton.1 hi]
      exact List.mem_cons_self

theorem Valid.removePermission (hv : t.Valid) (hp : t.referenced p = []) :
    Valid { t with permissions := t.permissions.filter fun r => r.permission ≠ p } := by
  have hsub : (t.permissions.filter fun r => r.permission ≠ p).Sublist t.permissions :=
    List.filter_sublist
  refine ⟨hv.ids.sublist (hsub.map _), hv.permissions.sublist (hsub.map _), hv.grants,
    fun g hg => ?_, fun i hi => hv.used i ((hsub.map _).subset hi)⟩
  obtain ⟨⟨i, q⟩, hr, hi⟩ := List.mem_map.1 (hv.foreignKey g hg)
  refine List.mem_map.2 ⟨⟨i, q⟩, List.mem_filter.2 ⟨hr, ?_⟩, hi⟩
  simp only [ne_eq, decide_eq_true_eq]
  rintro rfl
  have hm : g ∈ t.referenced q := by
    refine List.mem_filter.2 ⟨hg, ?_⟩
    rw [decide_eq_true_eq, ← hi, mem_ids]
    exact hr
  rw [hp] at hm
  cases hm

theorem Executes.valid {c : Command} (h : t.Executes c a t') (hv : t.Valid) : t'.Valid := by
  cases c with
  | insertPermission p =>
    simp only [Executes, outcome] at h
    split at h
    · rename_i hp
      obtain ⟨id, hid, -, rfl⟩ := h
      exact hv.addPermission hid hp
    · exact h.2 ▸ hv
  | deletePermission p =>
    simp only [Executes, outcome] at h
    split at h
    · rename_i hp
      exact h.2 ▸ hv.removePermission hp
    · exact h.2 ▸ hv
  | insertGrant id role =>
    simp only [Executes, outcome] at h
    split at h
    · exact h.2 ▸ hv
    · rename_i hg
      split at h
      · rename_i hid
        exact h.2 ▸ hv.addGrant hg hid
      · exact h.2 ▸ hv
  | deleteGrants p => exact h.2 ▸ hv.filterGrants _
  | deleteGrant p role => exact h.2 ▸ hv.filterGrants _
  | _ => exact h.2 ▸ hv

end Rows

end AccessControl.Postgres
