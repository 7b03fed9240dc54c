import AccessControl.Permission.Basic

/-!
# Failures of a permission store
-/

namespace AccessControl

inductive StoreError where
  | notFound (p : Permission)
  | alreadyExists (p : Permission)
  | stillGranted (p : Permission) (roles : Nat)
  | storage (text : String)
deriving DecidableEq, Repr

namespace StoreError

def message : StoreError → String
  | .notFound p => "Permission not found: " ++ p.text
  | .alreadyExists p => "Permission already exists: " ++ p.text
  | .stillGranted p n =>
    "Permission " ++ p.text ++ " is still granted to " ++ toString n ++ " role(s)"
  | .storage text => "Storage error: " ++ text

end StoreError

end AccessControl
