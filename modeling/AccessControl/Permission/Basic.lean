import AccessControl.Identity.Group

/-!
# Permissions and roles

A permission allows an action on a resource. A role is a group seen as a holder of permissions;
grants know it by its id alone.
-/

namespace AccessControl

structure Permission where
  resource : String
  action : String
deriving DecidableEq, Repr, Inhabited

namespace Permission

def text (p : Permission) : String := p.resource ++ ":" ++ p.action

def fields : List Json.Field := [.required "resource" .text, .required "action" .text]

def ofScalars : List Json.Scalar → Option Permission
  | [.text resource, .text action] => some ⟨resource, action⟩
  | _ => none

def toJson (p : Permission) : Json :=
  .obj [("resource", .str p.resource), ("action", .str p.action)]

def parse (s : String) : Except Json.Fault Permission := Json.parseAs fields ofScalars s

def le (p q : Permission) : Bool :=
  if p.resource = q.resource then decide (p.action ≤ q.action) else decide (p.resource ≤ q.resource)

def sort (ps : List Permission) : List Permission := ps.mergeSort le

end Permission

structure Role where
  id : String
  displayName : String
deriving DecidableEq, Repr, Inhabited

namespace Role

def text (r : Role) : String := "role " ++ r.id

def ofGroup (g : Group) : Role := ⟨g.id, g.displayName⟩

def fields : List Json.Field := [.required "id" .text, .required "display_name" .text]

def ofScalars : List Json.Scalar → Option Role
  | [.text id, .text name] => some ⟨id, name⟩
  | _ => none

def toJson (r : Role) : Json := .obj [("id", .str r.id), ("display_name", .str r.displayName)]

def parse (s : String) : Except Json.Fault Role := Json.parseAs fields ofScalars s

end Role

end AccessControl
