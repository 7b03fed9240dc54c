/-!
# Sets of role ids

A set is the ascending list of its ids, in the order of code points.
-/

namespace AccessControl

abbrev RoleSet := List String

namespace RoleSet

def insert (id : String) : RoleSet → RoleSet
  | [] => [id]
  | x :: xs => if id < x then id :: x :: xs else if id = x then x :: xs else x :: insert id xs

theorem mem_insert {a id : String} {s : RoleSet} : a ∈ insert id s ↔ a = id ∨ a ∈ s := by
  induction s with
  | nil => simp [insert]
  | cons x xs ih =>
    simp only [insert]
    split
    · simp
    · split
      · rename_i h
        subst h
        simp
      · simp only [List.mem_cons, ih]
        constructor <;> (intro h; rcases h with h | h | h <;> simp [h])

def Sorted (s : RoleSet) : Prop := s.Pairwise (· < ·)

theorem Sorted.insert {id : String} {s : RoleSet} (h : Sorted s) :
    Sorted (RoleSet.insert id s) := by
  induction s with
  | nil => simp [RoleSet.insert, Sorted]
  | cons x xs ih =>
    have hx := List.pairwise_cons.1 h
    simp only [RoleSet.insert]
    split
    · rename_i hlt
      refine List.pairwise_cons.2 ⟨fun a ha => ?_, h⟩
      rcases List.mem_cons.1 ha with rfl | ha
      · exact hlt
      · exact String.lt_trans hlt (hx.1 a ha)
    · split
      · exact h
      · rename_i hlt hne
        refine List.pairwise_cons.2 ⟨fun a ha => ?_, ih hx.2⟩
        rcases mem_insert.1 ha with rfl | ha
        · exact Std.lt_of_le_of_ne (String.not_lt.1 hlt) (Ne.symm hne)
        · exact hx.1 a ha

def erase (id : String) (s : RoleSet) : RoleSet := s.filter (· ≠ id)

theorem mem_erase {a id : String} {s : RoleSet} : a ∈ erase id s ↔ a ∈ s ∧ a ≠ id := by
  simp [erase]

theorem Sorted.erase {id : String} {s : RoleSet} (h : Sorted s) : Sorted (RoleSet.erase id s) :=
  List.Pairwise.filter _ h

end RoleSet

end AccessControl
