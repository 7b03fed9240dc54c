import AccessControl.Permission.Store

/-!
# Who holds a permission

A role id holds a permission in a store if the permission exists with the id among its holders. Each
call is described by what it does to that relation and to the permissions that exist.
-/

namespace AccessControl.Store

variable {st : Store} {p q : Permission} {id : String} {s : RoleSet}

def Contains (st : Store) (p : Permission) : Prop := ∃ s, st.roles? p = some s

def Holds (st : Store) (p : Permission) (id : String) : Prop :=
  ∃ s, st.roles? p = some s ∧ id ∈ s

theorem holds_iff_mem (hs : st.roles? p = some s) : st.Holds p id ↔ id ∈ s := by
  constructor
  · rintro ⟨t, ht, hm⟩
    rw [hs] at ht
    cases ht
    exact hm
  · exact fun hm => ⟨s, hs, hm⟩

theorem not_holds_of_roles?_eq_none (hp : st.roles? p = none) : ¬ st.Holds p id := by
  rintro ⟨s, hs, -⟩
  rw [hp] at hs
  cases hs

theorem not_holds_empty (p : Permission) (id : String) : ¬ empty.Holds p id :=
  not_holds_of_roles?_eq_none (roles?_empty p)

theorem holds_congr {st' : Store} (h : st.roles? p = st'.roles? p) :
    st.Holds p id ↔ st'.Holds p id := by
  simp only [Holds, h]

theorem holds_setRoles_self (hq : st.Contains p) : (st.setRoles p s).Holds p id ↔ id ∈ s := by
  obtain ⟨t, ht⟩ := hq
  exact holds_iff_mem (by rw [roles?_setRoles, if_pos rfl, ht, Option.map_some])

theorem holds_setRoles_of_ne (h : q ≠ p) : (st.setRoles q s).Holds p id ↔ st.Holds p id :=
  holds_congr (by rw [roles?_setRoles, if_neg h])

theorem contains_iff_isSome : st.Contains p ↔ (st.roles? p).isSome = true := by
  rw [Option.isSome_iff_exists, Contains]

theorem not_contains_iff : ¬ st.Contains p ↔ st.roles? p = none := by
  rw [contains_iff_isSome, Bool.not_eq_true, Option.isSome_eq_false_iff, Option.isNone_iff_eq_none]

theorem Holds.contains (h : st.Holds p id) : st.Contains p := by
  obtain ⟨s, hs, -⟩ := h
  exact ⟨s, hs⟩

theorem contains_setRoles : (st.setRoles q s).Contains p ↔ st.Contains p := by
  rw [contains_iff_isSome, contains_iff_isSome, roles?_setRoles]
  split
  · rw [Option.isSome_map]
  · rfl

theorem contains_add : (st.add q).Contains p ↔ q = p ∨ st.Contains p := by
  rw [contains_iff_isSome, contains_iff_isSome, roles?_add]
  split <;> simp_all

theorem contains_remove : (st.remove q).Contains p ↔ q ≠ p ∧ st.Contains p := by
  rw [contains_iff_isSome, contains_iff_isSome, roles?_remove]
  split <;> simp_all

theorem apply_snd_of_error {k : StoreCall} {e : StoreError} (h : (apply k st).1 = .error e) :
    (apply k st).2 = st := by
  cases k with
  | revokeAll q => cases h
  | _ q =>
    simp only [apply] at h ⊢
    split <;> simp_all

theorem holds_insert : (apply (.insert q) st).2.Holds p id ↔ st.Holds p id := by
  simp only [apply]
  cases hq : st.roles? q with
  | some s => rfl
  | none =>
    by_cases h : q = p
    · subst h
      have ha : (st.add q).roles? q = some [] := by rw [roles?_add, if_pos rfl]
      simp [holds_iff_mem ha, not_holds_of_roles?_eq_none hq]
    · exact holds_congr (by rw [roles?_add, if_neg h])

theorem holds_delete : (apply (.delete q) st).2.Holds p id ↔ st.Holds p id := by
  simp only [apply]
  split
  · rfl
  · rename_i hq
    by_cases h : q = p
    · subst h
      have hr : (st.remove q).roles? q = none := by rw [roles?_remove, if_pos rfl]
      simp [holds_iff_mem hq, not_holds_of_roles?_eq_none hr]
    · exact holds_congr (by rw [roles?_remove, if_neg h])
  · rfl

theorem holds_grant {r : Role} :
    (apply (.grant q r) st).2.Holds p id ↔
      st.Holds p id ∨ (q = p ∧ r.id = id ∧ st.Contains q) := by
  simp only [apply]
  cases hq : st.roles? q with
  | none => simp [Contains, hq]
  | some s =>
    by_cases h : q = p
    · subst h
      have hc : st.Contains q := ⟨s, hq⟩
      rw [holds_setRoles_self hc, holds_iff_mem hq, RoleSet.mem_insert]
      simp [hc, or_comm, eq_comm]
    · rw [holds_setRoles_of_ne h]
      simp [h]

theorem holds_revokeAll : (apply (.revokeAll q) st).2.Holds p id ↔ st.Holds p id ∧ q ≠ p := by
  simp only [apply]
  by_cases h : q = p
  · subst h
    simp only [ne_eq, not_true_eq_false, and_false, iff_false]
    rintro ⟨t, ht, hm⟩
    rw [roles?_setRoles, if_pos rfl, Option.map_eq_some_iff] at ht
    obtain ⟨-, -, rfl⟩ := ht
    cases hm
  · rw [holds_setRoles_of_ne h]
    simp [h]

theorem holds_revoke {r : Role} :
    (apply (.revoke q r) st).2.Holds p id ↔ st.Holds p id ∧ ¬ (q = p ∧ r.id = id) := by
  simp only [apply]
  cases hq : st.roles? q with
  | none =>
    refine ⟨fun h => ⟨h, ?_⟩, fun h => h.1⟩
    rintro ⟨rfl, -⟩
    exact not_holds_of_roles?_eq_none hq h
  | some s =>
    by_cases h : q = p
    · subst h
      rw [holds_setRoles_self ⟨s, hq⟩, holds_iff_mem hq, RoleSet.mem_erase]
      simp [eq_comm]
    · rw [holds_setRoles_of_ne h]
      simp [h]

theorem hasAny_eq_ok_iff {roles : List Role} {b : Bool} :
    (apply (.hasAny roles p) st).1 = .ok b ↔ (b = true ↔ ∃ r ∈ roles, st.Holds p r.id) := by
  simp only [apply]
  cases hp : st.roles? p with
  | none =>
    have hn (id : String) : ¬ st.Holds p id := not_holds_of_roles?_eq_none hp
    cases b <;> simp [hn]
  | some s =>
    simp only [holds_iff_mem hp]
    cases b <;> simp [List.any_eq_true]

end AccessControl.Store
