import AccessControl.Permission.Error

/-!
# Calls on a permission store

What a store can be asked, and what it answers when the call succeeds.
-/

namespace AccessControl

inductive StoreCall where
  | insert (p : Permission)
  | delete (p : Permission)
  | grant (p : Permission) (r : Role)
  | revokeAll (p : Permission)
  | revoke (p : Permission) (r : Role)
  | hasAny (roles : List Role) (p : Permission)
  | grantedRoles (p : Permission)
deriving DecidableEq, Repr

namespace StoreCall

abbrev Answer : StoreCall → Type
  | hasAny _ _ => Bool
  | grantedRoles _ => List String
  | _ => Unit

abbrev Result (c : StoreCall) : Type := Except StoreError c.Answer

def permission : StoreCall → Permission
  | insert p => p
  | delete p => p
  | grant p _ => p
  | revokeAll p => p
  | revoke p _ => p
  | hasAny _ p => p
  | grantedRoles p => p

inductive Method where
  | insert
  | delete
  | grant
  | revokeAll
  | revoke
  | hasAny
  | grantedRoles
deriving DecidableEq, Repr

def method : StoreCall → Method
  | insert _ => .insert
  | delete _ => .delete
  | grant _ _ => .grant
  | revokeAll _ => .revokeAll
  | revoke _ _ => .revoke
  | hasAny _ _ => .hasAny
  | grantedRoles _ => .grantedRoles

end StoreCall

end AccessControl
