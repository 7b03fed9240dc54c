import AccessControl.Proofs.Permission.Shape
import AccessControl.Proofs.Postgres.Rows

/-!
# Tables that represent a store

Tables represent a store in memory if the permissions that exist are the same and each has a row
whose grants name its holders. Every statement on the tables is described by what it answers and
does to the store that they represent.
-/

namespace AccessControl

namespace Postgres

open Sql

namespace Rows

/-- What the rows say about a permission: that it does not exist, or who holds it. -/
def Records (t : Rows) (p : Permission) : Option RoleSet → Prop
  | none => ∀ id, ⟨id, p⟩ ∉ t.permissions
  | some s => ∃ id, ⟨id, p⟩ ∈ t.permissions ∧ s.Sorted ∧ ∀ role, role ∈ s ↔ ⟨id, role⟩ ∈ t.grants

structure Represents (t : Rows) (st : Store) : Prop where
  valid : t.Valid
  records : ∀ p, t.Records p (st.roles? p)

variable {t t' : Rows} {st : Store} {p : Permission} {s : RoleSet} {id : Int} {a : Answer}

theorem represents_empty (used : List Int) : Represents ⟨[], [], used⟩ .empty :=
  ⟨valid_empty used, fun _ _ => List.not_mem_nil⟩

theorem Represents.congr {st' : Store} (hr : t.Represents st)
    (h : ∀ q, st'.roles? q = st.roles? q) : t.Represents st' :=
  ⟨hr.valid, fun q => h q ▸ hr.records q⟩

theorem Represents.absent (hr : t.Represents st) (hp : st.roles? p = none) : t.ids p = [] := by
  have h := hr.records p
  rw [hp] at h
  exact ids_eq_nil.2 h

theorem Represents.present (hr : t.Represents st) (hp : st.roles? p = some s) :
    ∃ id, ⟨id, p⟩ ∈ t.permissions ∧ s.Sorted ∧ ∀ role, role ∈ s ↔ ⟨id, role⟩ ∈ t.grants := by
  have h := hr.records p
  rw [hp] at h
  exact h

theorem Represents.setRoles {gs : List GrantRow} {s' : RoleSet} (hr : t.Represents st)
    (hid : ⟨id, p⟩ ∈ t.permissions) (hv : Valid { t with grants := gs }) (hs : s'.Sorted)
    (hown : ∀ role, role ∈ s' ↔ ⟨id, role⟩ ∈ gs)
    (hother : ∀ g : GrantRow, g.permissionId ≠ id → (g ∈ gs ↔ g ∈ t.grants)) :
    Represents { t with grants := gs } (st.setRoles p s') := by
  refine ⟨hv, fun q => ?_⟩
  have hq := hr.records q
  rw [Store.roles?_setRoles]
  split
  · rename_i h
    subst h
    cases hp : st.roles? p with
    | none =>
      rw [hp] at hq
      exact absurd hid (hq id)
    | some s => exact ⟨id, hid, hs, hown⟩
  · rename_i h
    cases hp : st.roles? q with
    | none =>
      rw [hp] at hq
      exact hq
    | some s =>
      rw [hp] at hq
      obtain ⟨i, hi, hsorted, hmem⟩ := hq
      refine ⟨i, hi, hsorted, fun role => (hmem role).trans (hother ⟨i, role⟩ ?_).symm⟩
      rintro rfl
      exact h (hr.valid.permission_unique hid hi)

theorem Represents.perm_roles (hr : t.Represents st) (hid : ⟨id, p⟩ ∈ t.permissions)
    (hp : st.roles? p = some s) :
    s.Perm ((t.grants.filter fun g => g.permissionId = id).map (·.role)) := by
  obtain ⟨i, hi, hsorted, hmem⟩ := hr.present hp
  obtain rfl := hr.valid.id_unique hi hid
  refine (List.perm_ext_iff_of_nodup hsorted.nodup ?_).2 fun role => (hmem role).trans ?_
  · refine List.Nodup.map_on ?_ (hr.valid.grants.filter _)
    rintro ⟨j, role⟩ hg ⟨k, role'⟩ hg' rfl
    simp only [List.mem_filter, decide_eq_true_eq] at hg hg'
    rw [hg.2, hg'.2]
  · simp only [List.mem_map, List.mem_filter, decide_eq_true_eq]
    constructor
    · exact fun h => ⟨_, ⟨h, rfl⟩, rfl⟩
    · rintro ⟨g, ⟨hg, rfl⟩, rfl⟩
      exact hg

theorem Represents.roles_eq {roles : List String} (hr : t.Represents st)
    (hid : ⟨id, p⟩ ∈ t.permissions) (hp : st.roles? p = some s)
    (hperm : roles.Perm ((t.grants.filter fun g => g.permissionId = id).map (·.role)))
    (hord : roles.Pairwise Text.BytesLe) : roles = s := by
  obtain ⟨-, -, hsorted, -⟩ := hr.present hp
  have hroles : roles.Pairwise (· ≤ ·) := hord.imp Text.bytesLe_iff_le.1
  have hs : s.Pairwise (· ≤ ·) := hsorted.imp fun h => Std.le_of_lt h
  exact (hperm.trans (hr.perm_roles hid hp).symm).eq_of_pairwise
    (fun _ _ _ _ => String.le_antisymm) hroles hs

theorem Represents.mem_grants (hr : t.Represents st) (hid : ⟨id, p⟩ ∈ t.permissions)
    (hp : st.roles? p = some s) (role : String) : role ∈ s ↔ ⟨id, role⟩ ∈ t.grants := by
  obtain ⟨i, hi, -, hmem⟩ := hr.present hp
  exact hr.valid.id_unique hi hid ▸ hmem role

theorem Represents.referenced_eq (hr : t.Represents st) (hid : ⟨id, p⟩ ∈ t.permissions) :
    t.referenced p = t.grants.filter fun g => g.permissionId = id := by
  simp only [referenced, hr.valid.ids_eq hid, List.mem_singleton]

theorem referenced_eq_nil (hp : t.ids p = []) : t.referenced p = [] := by
  simp [referenced, hp]

theorem Represents.length_referenced (hr : t.Represents st) (hp : st.roles? p = some s) :
    (t.referenced p).length = s.length := by
  obtain ⟨id, hid, -, -⟩ := hr.present hp
  rw [hr.referenced_eq hid, (hr.perm_roles hid hp).length_eq, List.length_map]

theorem Represents.findPermission (hr : t.Represents st)
    (h : t.Executes (.findPermission p) a t') :
    t' = t ∧ match st.roles? p with
      | none => Gives [] a
      | some _ => ∃ id, ⟨id, p⟩ ∈ t.permissions ∧ Gives [.int id] a := by
  obtain ⟨⟨vs, hvs, ha⟩, rfl⟩ := h
  refine ⟨rfl, ?_⟩
  cases hp : st.roles? p with
  | none =>
    rw [hr.absent hp] at hvs
    exact hvs.eq_nil ▸ ha
  | some s =>
    obtain ⟨id, hid, -, -⟩ := hr.present hp
    rw [hr.valid.ids_eq hid] at hvs
    exact ⟨id, hid, List.perm_singleton.1 hvs ▸ ha⟩

theorem Represents.countGrants (hr : t.Represents st) (hp : st.roles? p = some s)
    (h : t.Executes (.countGrants p) a t') : t' = t ∧ Gives [.int s.length] a := by
  obtain ⟨ha, rfl⟩ := Outcome.allows_gives_singleton.1 h
  rw [hr.valid.joined_eq p, hr.length_referenced hp] at ha
  exact ⟨rfl, ha⟩

theorem Represents.insertPermission (hr : t.Represents st)
    (h : t.Executes (.insertPermission p) a t') :
    match st.roles? p with
    | none => Affects 1 a ∧ t'.Represents (st.add p)
    | some _ => Violates uniqueViolation a ∧ t' = t := by
  have hv := h.valid hr.valid
  simp only [Executes, outcome] at h
  cases hp : st.roles? p with
  | none =>
    rw [if_pos (hr.absent hp)] at h
    obtain ⟨id, hid, ha, rfl⟩ := h
    refine ⟨ha, hv, fun q => ?_⟩
    have hq := hr.records q
    rw [Store.roles?_add]
    split
    · rename_i h
      subst h
      refine ⟨id, List.mem_append_right _ (List.mem_singleton_self _), List.Pairwise.nil,
        fun role => iff_of_false List.not_mem_nil fun hg => ?_⟩
      exact hid (hr.valid.used id (hr.valid.foreignKey _ hg))
    · rename_i h
      cases hs : st.roles? q with
      | none =>
        rw [hs] at hq
        intro i hi
        rcases List.mem_append.1 hi with hi | hi
        · exact hq i hi
        · cases List.mem_singleton.1 hi
          exact h rfl
      | some s =>
        rw [hs] at hq
        obtain ⟨i, hi, hsorted, hmem⟩ := hq
        exact ⟨i, List.mem_append_left _ hi, hsorted, hmem⟩
  | some s =>
    obtain ⟨id, hid, -, -⟩ := hr.present hp
    rw [if_neg (by simp [hr.valid.ids_eq hid])] at h
    exact h

theorem Represents.removePermission (hr : t.Represents st) (hp : t.referenced p = []) :
    Represents { t with permissions := t.permissions.filter fun r => r.permission ≠ p }
      (st.remove p) := by
  refine ⟨hr.valid.removePermission hp, fun q => ?_⟩
  have hq := hr.records q
  rw [Store.roles?_remove]
  split
  · rename_i h
    subst h
    intro id hid
    simpa using (List.mem_filter.1 hid).2
  · rename_i h
    cases hs : st.roles? q with
    | none =>
      rw [hs] at hq
      exact fun id hid => hq id (List.mem_filter.1 hid).1
    | some s =>
      rw [hs] at hq
      obtain ⟨id, hid, hsorted, hmem⟩ := hq
      refine ⟨id, List.mem_filter.2 ⟨hid, ?_⟩, hsorted, hmem⟩
      rw [decide_eq_true_eq]
      exact fun he => h he.symm

theorem Represents.deletePermission (hr : t.Represents st)
    (h : t.Executes (.deletePermission p) a t') :
    match st.roles? p with
    | none => Affects 0 a ∧ t'.Represents st
    | some [] => Affects 1 a ∧ t'.Represents (st.remove p)
    | some (_ :: _) => Violates foreignKeyViolation a ∧ t' = t := by
  simp only [Executes, outcome] at h
  split
  · rename_i hp
    have hids := hr.absent hp
    have hnil := referenced_eq_nil hids
    rw [if_pos hnil, hids] at h
    obtain ⟨ha, rfl⟩ := h
    refine ⟨ha, (hr.removePermission hnil).congr fun q => ?_⟩
    rw [Store.roles?_remove]
    split
    · rename_i h
      rw [← h, hp]
    · rfl
  · rename_i hp
    obtain ⟨id, hid, -, -⟩ := hr.present hp
    have hnil : t.referenced p = [] := List.length_eq_zero_iff.1 (hr.length_referenced hp)
    rw [if_pos hnil, hr.valid.ids_eq hid] at h
    obtain ⟨ha, rfl⟩ := h
    exact ⟨ha, hr.removePermission hnil⟩
  · rename_i hp
    have hne : t.referenced p ≠ [] := by
      intro hnil
      have hl := hr.length_referenced hp
      rw [hnil] at hl
      cases hl
    rw [if_neg hne] at h
    exact h

theorem Represents.insertGrant {role : String} (hr : t.Represents st)
    (hid : ⟨id, p⟩ ∈ t.permissions) (hp : st.roles? p = some s)
    (h : t.Executes (.insertGrant id role) a t') :
    (∃ n, Affects n a) ∧ t'.Represents (st.setRoles p (RoleSet.insert role s)) := by
  obtain ⟨-, -, hsorted, -⟩ := hr.present hp
  have hmem := hr.mem_grants hid hp
  have hids : id ∈ t.permissions.map (·.id) := List.mem_map.2 ⟨_, hid, rfl⟩
  simp only [Executes, outcome, if_pos hids] at h
  split at h
  · rename_i hg
    obtain ⟨ha, rfl⟩ := h
    refine ⟨⟨0, ha⟩, hr.setRoles hid hr.valid hsorted.insert (fun x => ?_) fun _ _ => Iff.rfl⟩
    rw [RoleSet.mem_insert, hmem x]
    constructor
    · rintro (rfl | hx)
      · exact hg
      · exact hx
    · exact .inr
  · rename_i hg
    obtain ⟨ha, rfl⟩ := h
    refine ⟨⟨1, ha⟩, hr.setRoles hid (hr.valid.addGrant hg hids) hsorted.insert (fun x => ?_)
      fun g hne => ?_⟩
    · rw [RoleSet.mem_insert, hmem x, List.mem_append, List.mem_singleton, GrantRow.mk.injEq]
      simp [or_comm]
    · rw [List.mem_append, List.mem_singleton, or_iff_left]
      rintro rfl
      exact hne rfl

theorem Represents.insertGrant_gone {role : String} (hr : t.Represents st)
    (hid : id ∉ t.permissions.map (·.id)) (h : t.Executes (.insertGrant id role) a t') :
    Violates foreignKeyViolation a ∧ t' = t := by
  simp only [Executes, outcome, if_neg hid] at h
  rwa [if_neg fun hg => hid (hr.valid.foreignKey _ hg)] at h

theorem Represents.deleteGrants (hr : t.Represents st) (h : t.Executes (.deleteGrants p) a t') :
    (∃ n, Affects n a) ∧ t'.Represents (st.setRoles p []) := by
  obtain ⟨ha, rfl⟩ := h
  refine ⟨⟨_, ha⟩, ?_⟩
  cases hp : st.roles? p with
  | none =>
    simp only [hr.absent hp, List.not_mem_nil, not_false_eq_true, decide_true, List.filter_true]
    refine hr.congr fun q => ?_
    rw [Store.roles?_setRoles]
    split
    · rename_i h
      rw [← h, hp]
      rfl
    · rfl
  | some s =>
    obtain ⟨id, hid, -, -⟩ := hr.present hp
    refine hr.setRoles hid (hr.valid.filterGrants _) List.Pairwise.nil (fun role => ?_)
      fun g hne => ?_
    · simp [hr.valid.ids_eq hid]
    · simp [hr.valid.ids_eq hid, hne]

theorem Represents.deleteGrant {role : String} (hr : t.Represents st)
    (h : t.Executes (.deleteGrant p role) a t') :
    (∃ n, Affects n a) ∧ t'.Represents
      (match st.roles? p with
        | none => st
        | some s => st.setRoles p (RoleSet.erase role s)) := by
  obtain ⟨ha, rfl⟩ := h
  refine ⟨⟨_, ha⟩, ?_⟩
  cases hp : st.roles? p with
  | none => simpa [hr.absent hp] using hr
  | some s =>
    obtain ⟨id, hid, hsorted, -⟩ := hr.present hp
    refine hr.setRoles hid (hr.valid.filterGrants _) hsorted.erase (fun x => ?_) fun g hne => ?_
    · rw [RoleSet.mem_erase, hr.mem_grants hid hp x]
      simp [hr.valid.ids_eq hid]
    · simp [hr.valid.ids_eq hid, hne]

theorem Represents.holdsAny {roles : List String} (hr : t.Represents st)
    (h : t.Executes (.holdsAny p roles) a t') :
    t' = t ∧ Gives [.bool (match st.roles? p with
      | none => false
      | some s => roles.any fun r => s.contains r)] a := by
  obtain ⟨ha, hsame⟩ := Outcome.allows_gives_singleton.1 h
  refine ⟨hsame, ?_⟩
  rw [hr.valid.joined_eq p] at ha
  cases hp : st.roles? p with
  | none => simpa [referenced_eq_nil (hr.absent hp)] using ha
  | some s =>
    obtain ⟨id, hid, -, -⟩ := hr.present hp
    have hany : ((t.referenced p).any fun g => roles.contains g.role) =
        roles.any fun r => s.contains r := by
      rw [hr.referenced_eq hid, Bool.eq_iff_iff]
      simp only [List.any_eq_true, List.mem_filter, decide_eq_true_eq, List.contains_iff_mem,
        hr.mem_grants hid hp]
      constructor
      · rintro ⟨g, ⟨hg, rfl⟩, hm⟩
        exact ⟨g.role, hm, hg⟩
      · rintro ⟨r, hm, hg⟩
        exact ⟨_, ⟨hg, rfl⟩, hm⟩
    rwa [hany] at ha

theorem Represents.listRoles (hr : t.Represents st) (hid : ⟨id, p⟩ ∈ t.permissions)
    (hp : st.roles? p = some s) (h : t.Executes (.listRoles id) a t') :
    t' = t ∧ Gives (s.map .text) a := by
  obtain ⟨⟨roles, hperm, hord, ha⟩, rfl⟩ := h
  exact ⟨rfl, hr.roles_eq hid hp hperm hord ▸ ha⟩

end Rows

end Postgres

end AccessControl
