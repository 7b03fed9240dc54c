import AccessControl.Settings.Literal

/-!
# Settings from the environment

Variables whose names start with a certain text, in upper or lower case, define settings: two
underscores or a dot in the rest of the name descend into a table.
-/

namespace AccessControl.Settings

open Text

abbrev Environment : Type := List (String × String)

namespace Environment

def get? (env : Environment) (name : String) : Option String :=
  (env.find? fun v => v.1 = name).map (·.2)

def stripStart? (start name : List Char) : Option (List Char) :=
  if (name.take start.length).map lowerChar = start.map lowerChar then some (name.drop start.length)
  else none

def dotted : List Char → List Char
  | '_' :: '_' :: r => '.' :: dotted r
  | c :: r => c :: dotted r
  | [] => []

def path? (start name : String) : Option (List String) := do
  let rest ← stripStart? start.toList (trimChars isBlank name.toList)
  let parts := splitOn '.' ((trimChars isBlank (dotted rest)).map lowerChar)
  if parts.any (·.isEmpty) then none else some (parts.map String.ofList)

def setting? (start : String) (v : String × String) : Option Json :=
  (path? start v.1).map fun path => nest path (Literal.parse (trim v.2))

/-- The settings of the variables that start in a certain way, later ones laid over earlier ones. -/
def members (start : String) (env : Environment) : Members :=
  env.foldl (fun ms v =>
    match setting? start v with
    | some (.obj top) => overlayMembers top ms
    | _ => ms) []

end Environment

end AccessControl.Settings
