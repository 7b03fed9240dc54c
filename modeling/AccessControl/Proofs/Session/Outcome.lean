import AccessControl.Proofs.Permission.Apart
import AccessControl.Proofs.Session.Ledger

/-!
# Outcomes of operations

What an operation answers over a store that never fails is decided by whether the permission that it
names exists.
-/

namespace AccessControl

def Storeless (lookup : String → Except AuthorityError (List Group)) : Prop :=
  ∀ user e, lookup user ≠ .error (.store e)

namespace Operation

variable {lookup : String → Except AuthorityError (List Group)} {st : Store} {p : Permission}
  {r : Role}

theorem add_of_contains (hp : st.Contains p) :
    (add p).onStore lookup st = (.error (.store (.alreadyExists p)), st) := by
  obtain ⟨s, hs⟩ := hp
  simp [onStore, Store.report, Store.apply, hs]

theorem add_of_not_contains (hp : ¬ st.Contains p) :
    (add p).onStore lookup st = (.ok (), st.add p) := by
  simp [onStore, Store.report, Store.apply, Store.not_contains_iff.1 hp]

theorem add_fst_iff :
    (((add p).onStore lookup st).1 = .ok () ↔ ¬ st.Contains p) ∧
      (((add p).onStore lookup st).1 = .error (.store (.alreadyExists p)) ↔ st.Contains p) := by
  by_cases hp : st.Contains p
  · simp [add_of_contains hp, hp]
  · simp [add_of_not_contains hp, hp]

theorem grant_of_contains (hp : st.Contains p) :
    ((grant p r).onStore lookup st).1 = .ok () := by
  obtain ⟨s, hs⟩ := hp
  simp [onStore, Store.report, Store.apply, hs]

theorem grant_of_not_contains (hp : ¬ st.Contains p) :
    (grant p r).onStore lookup st = (.error (.store (.notFound p)), st) := by
  simp [onStore, Store.report, Store.apply, Store.not_contains_iff.1 hp]

theorem grant_fst_iff :
    (((grant p r).onStore lookup st).1 = .ok () ↔ st.Contains p) ∧
      (((grant p r).onStore lookup st).1 = .error (.store (.notFound p)) ↔ ¬ st.Contains p) := by
  by_cases hp : st.Contains p
  · simp [grant_of_contains hp, hp]
  · simp [grant_of_not_contains hp, hp]

theorem delete_of_contains (hp : st.Contains p) :
    (delete p).onStore lookup st = (.ok (), st.remove p) := by
  obtain ⟨s, hs⟩ := hp
  have hr : (st.setRoles p []).roles? p = some [] := by
    rw [Store.roles?_setRoles, if_pos rfl, hs, Option.map_some]
  simp [onStore, Store.report, Store.apply, hr, Store.remove_setRoles_self]

theorem delete_of_not_contains (hp : ¬ st.Contains p) :
    (delete p).onStore lookup st = (.error (.store (.notFound p)), st) := by
  have hset : st.setRoles p [] = st := Store.setRoles_of_not_contains hp
  simp [onStore, Store.report, Store.apply, hset, Store.not_contains_iff.1 hp]

theorem delete_fst_iff :
    (((delete p).onStore lookup st).1 = .ok () ↔ st.Contains p) ∧
      (((delete p).onStore lookup st).1 = .error (.store (.notFound p)) ↔ ¬ st.Contains p) := by
  by_cases hp : st.Contains p
  · simp [delete_of_contains hp, hp]
  · simp [delete_of_not_contains hp, hp]

theorem delete_snd : ((delete p).onStore lookup st).2 = st.remove p := by
  by_cases hp : st.Contains p
  · rw [delete_of_contains hp]
  · rw [delete_of_not_contains hp, Store.remove_of_not_contains hp]

theorem revoke_fst : ((revoke p r).onStore lookup st).1 = .ok () := by
  simp only [onStore, Store.report, Store.apply]
  split <;> rfl

theorem grantedRoles_of_not_contains (hp : ¬ st.Contains p) :
    (grantedRoles p).onStore lookup st = (.error (.store (.notFound p)), st) := by
  simp [onStore, Store.report, Store.apply, Store.not_contains_iff.1 hp]

theorem grantedRoles_of_roles? {s : RoleSet} (hs : st.roles? p = some s) :
    (grantedRoles p).onStore lookup st = (.ok s, st) := by
  simp [onStore, Store.report, Store.apply, hs]

theorem grantedRoles_fst_eq_error_iff :
    ((grantedRoles p).onStore lookup st).1 = .error (.store (.notFound p)) ↔
      ¬ st.Contains p := by
  by_cases hp : st.Contains p
  · obtain ⟨s, hs⟩ := hp
    simp [grantedRoles_of_roles? hs, Store.Contains, hs]
  · simp [grantedRoles_of_not_contains hp, hp]

theorem grantedRoles_snd : ((grantedRoles p).onStore lookup st).2 = st := by
  simp only [onStore, Store.report, Store.apply]
  split <;> rfl

theorem check_snd {user : String} : ((check user p).onStore lookup st).2 = st := by
  simp only [onStore, Store.report, Store.apply]
  repeat' split
  all_goals rfl

/-- Deletions revoke first, so that nothing is still granted when the permission goes. -/
theorem onStore_ne_stillGranted {o : Operation} (hl : Storeless lookup)
    (q : Permission) (k : Nat) :
    (o.onStore lookup st).1 ≠ .error (.store (.stillGranted q k)) := by
  intro h
  cases o with
  | delete p =>
    by_cases hp : st.Contains p
    · simp [delete_of_contains hp] at h
    · simp [delete_of_not_contains hp] at h
  | check user p =>
    simp only [onStore] at h
    split at h
    · rename_i e he
      cases h
      exact hl user _ he
    · split at h
      · cases h
      · simp only [Store.report, Store.apply] at h
        split at h <;> cases h
  | revokeAll p => cases h
  | bind i => cases h
  | unbind => cases h
  | _ =>
    simp only [onStore, Store.report, Store.apply] at h
    split at h <;> cases h

end Operation

end AccessControl
