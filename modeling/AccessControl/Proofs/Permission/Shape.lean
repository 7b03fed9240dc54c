import AccessControl.Proofs.Permission.Holding
import Mathlib.Data.List.Nodup

/-!
# The shape of a store

A well-formed store has one entry for each permission that exists, with its holders in ascending
order, so that its size counts the permissions. Every call keeps a store well-formed.
-/

namespace AccessControl

theorem RoleSet.Sorted.nodup {s : RoleSet} (h : s.Sorted) : s.Nodup := by
  refine List.Pairwise.imp ?_ h
  rintro a b hab rfl
  exact String.lt_irrefl a hab

namespace Store

variable {st : Store} {p q : Permission} {s : RoleSet}

def permissions (st : Store) : List Permission := st.entries.map (·.1)

structure WellFormed (st : Store) : Prop where
  distinct : st.permissions.Nodup
  sorted : ∀ e ∈ st.entries, e.2.Sorted

theorem wellFormed_empty : empty.WellFormed where
  distinct := List.nodup_nil
  sorted _ he := absurd he List.not_mem_nil

theorem mem_entries_of_roles? (hp : st.roles? p = some s) : (p, s) ∈ st.entries := by
  obtain ⟨es⟩ := st
  simp only [roles?] at hp
  induction es with
  | nil => cases hp
  | cons e es ih =>
    obtain ⟨k, t⟩ := e
    simp only [lookup] at hp
    split at hp
    · rename_i hk
      cases hp
      exact hk ▸ List.mem_cons_self
    · exact List.mem_cons_of_mem _ (ih hp)

theorem mem_permissions : p ∈ st.permissions ↔ st.Contains p := by
  obtain ⟨es⟩ := st
  simp only [permissions, Contains, roles?]
  induction es with
  | nil => simp [lookup]
  | cons e es ih =>
    obtain ⟨k, t⟩ := e
    by_cases hk : k = p
    · simp [lookup, hk]
    · simp [lookup, hk, Ne.symm hk, ih]

theorem WellFormed.sorted_of_roles? (h : st.WellFormed) (hp : st.roles? p = some s) : s.Sorted :=
  h.sorted _ (mem_entries_of_roles? hp)

theorem permissions_setRoles : (st.setRoles p s).permissions = st.permissions := by
  simp only [permissions, setRoles, replaceIn, List.map_map]
  refine List.map_congr_left fun e _ => ?_
  simp only [Function.comp]
  split <;> rfl

theorem WellFormed.setRoles (h : st.WellFormed) (hs : s.Sorted) : (st.setRoles p s).WellFormed := by
  refine ⟨?_, fun e he => ?_⟩
  · rw [permissions_setRoles]
    exact h.distinct
  · obtain ⟨f, hf, rfl⟩ := List.mem_map.1 he
    split
    · exact hs
    · exact h.sorted f hf

theorem WellFormed.add (h : st.WellFormed) (hp : ¬ st.Contains p) : (st.add p).WellFormed := by
  refine ⟨List.nodup_cons.2 ⟨fun hm => hp (mem_permissions.1 hm), h.distinct⟩, fun e he => ?_⟩
  rcases List.mem_cons.1 he with rfl | he
  · exact List.Pairwise.nil
  · exact h.sorted e he

theorem permissions_remove : (st.remove p).permissions = st.permissions.filter (· ≠ p) := by
  simp only [permissions, remove, List.filter_map]
  rfl

theorem WellFormed.remove (h : st.WellFormed) : (st.remove p).WellFormed := by
  refine ⟨?_, fun e he => h.sorted e (List.mem_filter.1 he).1⟩
  rw [permissions_remove]
  exact h.distinct.filter _

theorem WellFormed.apply (h : st.WellFormed) (k : StoreCall) : (Store.apply k st).2.WellFormed := by
  cases k with
  | insert q =>
    simp only [Store.apply]
    split
    · exact h
    · rename_i hq
      exact h.add (not_contains_iff.2 hq)
  | delete q =>
    simp only [Store.apply]
    split
    · exact h
    · exact h.remove
    · exact h
  | grant q r =>
    simp only [Store.apply]
    split
    · exact h
    · rename_i hq
      exact h.setRoles (h.sorted_of_roles? hq).insert
  | revokeAll q => exact h.setRoles List.Pairwise.nil
  | revoke q r =>
    simp only [Store.apply]
    split
    · exact h
    · rename_i hq
      exact h.setRoles (h.sorted_of_roles? hq).erase
  | hasAny roles q =>
    simp only [Store.apply]
    split <;> exact h
  | grantedRoles q =>
    simp only [Store.apply]
    split <;> exact h

theorem setRoles_of_not_contains (hp : ¬ st.Contains p) : st.setRoles p s = st := by
  have hmap : replaceIn p s st.entries = st.entries.map id := by
    refine List.map_congr_left fun e he => ?_
    rw [if_neg]
    · rfl
    · rintro rfl
      exact hp (mem_permissions.1 (List.mem_map_of_mem he))
  rw [setRoles, hmap, List.map_id]

theorem remove_of_not_contains (hp : ¬ st.Contains p) : st.remove p = st := by
  have hfilter : (st.entries.filter fun e => e.1 ≠ p) = st.entries := by
    refine List.filter_eq_self.2 fun e he => decide_eq_true ?_
    rintro rfl
    exact hp (mem_permissions.1 (List.mem_map_of_mem he))
  rw [remove, hfilter]

theorem permissions_apply {k : StoreCall} (hi : k.method ≠ .insert) (hd : k.method ≠ .delete) :
    (Store.apply k st).2.permissions = st.permissions := by
  cases k with
  | insert q => exact absurd rfl hi
  | delete q => exact absurd rfl hd
  | revokeAll q => exact permissions_setRoles
  | _ q =>
    simp only [Store.apply]
    split <;> first | rfl | exact permissions_setRoles

theorem size_eq : st.size = st.permissions.length := (List.length_map _).symm

theorem WellFormed.size_remove (h : st.WellFormed) (hp : st.Contains p) :
    (st.remove p).size + 1 = st.size := by
  have hm := mem_permissions.2 hp
  have herase : st.permissions.filter (· ≠ p) = st.permissions.erase p := by
    rw [h.distinct.erase_eq_filter]
    refine List.filter_congr fun x _ => ?_
    cases hx : decide (x = p) <;> simp_all
  rw [size_eq, size_eq, permissions_remove, herase, List.length_erase_of_mem hm]
  exact Nat.sub_add_cancel (List.length_pos_of_mem hm)

end Store

end AccessControl
