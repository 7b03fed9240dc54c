import AccessControl.Proofs.Permission.Shape

/-!
# Permissions apart from each other

A call about one permission neither sees nor changes what a store says about another.
-/

namespace AccessControl.Store

variable {st : Store} {p q : Permission} {s : RoleSet} {k : StoreCall}

theorem not_contains_remove_self : ¬ (st.remove p).Contains p :=
  fun h => (contains_remove.1 h).1 rfl

theorem remove_add_of_ne (h : q ≠ p) : (st.add q).remove p = (st.remove p).add q := by
  simp [add, remove, h]

theorem remove_remove : (st.remove q).remove p = (st.remove p).remove q := by
  simp only [remove, List.filter_filter, Bool.and_comm]

theorem remove_setRoles : (st.setRoles q s).remove p = (st.remove p).setRoles q s := by
  simp only [remove, setRoles, replaceIn, List.filter_map]
  congr 2
  refine List.filter_congr fun e _ => ?_
  simp only [Function.comp]
  split <;> rfl

theorem remove_setRoles_self : (st.setRoles p s).remove p = st.remove p := by
  rw [remove_setRoles, setRoles_of_not_contains not_contains_remove_self]

theorem roles?_remove_of_ne (h : q ≠ p) : (st.remove p).roles? q = st.roles? q := by
  rw [roles?_remove, if_neg h.symm]

theorem roles?_apply_of_ne (h : k.permission ≠ p) : (apply k st).2.roles? p = st.roles? p := by
  cases k with
  | revokeAll q =>
    simp only [StoreCall.permission] at h
    simp only [apply, roles?_setRoles, if_neg h]
  | _ =>
    simp only [StoreCall.permission] at h
    simp only [apply]
    split <;> simp [roles?_add, roles?_remove, roles?_setRoles, h]

theorem apply_remove_of_ne (h : k.permission ≠ p) :
    apply k (st.remove p) = ((apply k st).1, (apply k st).2.remove p) := by
  cases k with
  | revokeAll q => simp only [apply, remove_setRoles]
  | _ =>
    simp only [StoreCall.permission] at h
    simp only [apply, roles?_remove_of_ne h]
    split <;> simp [remove_setRoles, remove_add_of_ne h, remove_remove]

/-- What a call answers, and what it leaves of its permission, is decided by what the store says
about that permission. -/
theorem apply_congr {st' : Store} (hk : k.permission = p) (h : st.roles? p = st'.roles? p) :
    (apply k st).1 = (apply k st').1 ∧ (apply k st).2.roles? p = (apply k st').2.roles? p := by
  subst hk
  cases k with
  | revokeAll q =>
    simp only [StoreCall.permission] at h
    simp only [apply, StoreCall.permission, roles?_setRoles, h, and_self]
  | _ =>
    simp only [StoreCall.permission] at h
    simp only [apply, StoreCall.permission, ← h]
    split <;> simp [roles?_add, roles?_remove, roles?_setRoles, ← h]

end AccessControl.Store
