import AccessControl.Decimal.Shortest

/-!
# JSON values

An object keeps its members in the order they were given. Numbers are integers of any size or
binary floating point numbers.
-/

namespace AccessControl

open Decimal

inductive Json where
  | null
  | bool (b : Bool)
  | int (n : Int)
  | float (x : Binary64)
  | str (s : String)
  | arr (items : List Json)
  | obj (members : List (String × Json))
deriving Inhabited, Repr

namespace Json

def member? (name : String) : List (String × Json) → Option Json
  | [] => none
  | (k, v) :: rest => if k = name then some v else member? name rest

/-- Members with one set: in its place if the name is there, else at the end. -/
def setMember (name : String) (v : Json) : List (String × Json) → List (String × Json)
  | [] => [(name, v)]
  | (k, w) :: rest => if k = name then (k, v) :: rest else (k, w) :: setMember name v rest

def ofPairs (ps : List (String × Json)) : List (String × Json) :=
  ps.foldl (fun ms p => setMember p.1 p.2 ms) []

def strings (xs : List String) : Json := .arr (xs.map .str)

def ofOption : Option Json → Json
  | some v => v
  | none => .null

end Json

end AccessControl
