import AccessControl.Json.Record

/-!
# Groups

A group as an identity service reports it. Its display name is also read under the name that the
SCIM schemas use.
-/

namespace AccessControl

structure Group where
  id : String
  displayName : String
deriving DecidableEq, Repr, Inhabited

namespace Group

def text (g : Group) : String := g.id ++ " (" ++ g.displayName ++ ")"

def fields : List Json.Field :=
  [.required "id" .text, ⟨["display_name", "displayName"], .text, none⟩]

def ofScalars : List Json.Scalar → Option Group
  | [.text id, .text name] => some ⟨id, name⟩
  | _ => none

def toJson (g : Group) : Json := .obj [("id", .str g.id), ("display_name", .str g.displayName)]

def parse (s : String) : Except Json.Fault Group := Json.parseAs fields ofScalars s

end Group

end AccessControl
