import AccessControl.Identity.Error
import AccessControl.Permission.Basic

/-!
# The directory in memory

Each known user has a list of groups, kept in the order it was given. A user may be known and have
no groups.
-/

namespace AccessControl

structure Directory where
  members : List (String × List Group)
deriving DecidableEq, Repr, Inhabited

namespace Directory

def empty : Directory := ⟨[]⟩

def lookup (user : String) : List (String × List Group) → Option (List Group)
  | [] => none
  | (u, gs) :: rest => if u = user then some gs else lookup user rest

def groups? (d : Directory) (user : String) : Option (List Group) := lookup user d.members

def remove (d : Directory) (user : String) : Directory :=
  ⟨d.members.filter fun m => m.1 ≠ user⟩

def set (d : Directory) (user : String) (groups : List Group) : Directory :=
  ⟨(user, groups) :: (d.remove user).members⟩

theorem groups?_remove (d : Directory) (u v : String) :
    (d.remove u).groups? v = if u = v then none else d.groups? v := by
  obtain ⟨ms⟩ := d
  simp only [remove, groups?]
  induction ms with
  | nil => simp [lookup]
  | cons m ms ih =>
    obtain ⟨k, gs⟩ := m
    by_cases hk : k = u
    · subst hk
      by_cases hv : k = v <;> simpa [lookup, hv] using ih
    · by_cases hv : k = v
      · subst hv
        simp [lookup, hk, Ne.symm hk]
      · simpa [lookup, hk, hv] using ih

theorem groups?_set (d : Directory) (u v : String) (gs : List Group) :
    (d.set u gs).groups? v = if u = v then some gs else d.groups? v := by
  by_cases h : u = v
  · simp [set, groups?, lookup, h]
  · have := groups?_remove d u v
    simp only [groups?, h, if_false] at this
    simp [set, groups?, lookup, h, this]

def lookupGroups (d : Directory) (user : String) : Except IdentityError (List Group) :=
  match d.groups? user with
  | some gs => .ok gs
  | none => .error (.userNotFound user)

end Directory

def Role.ofGroups (gs : List Group) : List Role := gs.map Role.ofGroup

end AccessControl
