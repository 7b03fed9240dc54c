import AccessControl.Json.Basic

/-!
# Tables under construction

A table can be named by a header, implied by the header of a table inside it, or opened by a dotted
key. A header may name an implied table once; a dotted key may enter only tables that no header has
named. Values, and with them arrays and tables written in line, are closed.
-/

namespace AccessControl.Settings.Toml

inductive Origin where
  | header
  | implied
  | dotted
deriving DecidableEq, Repr

inductive Item where
  | value (v : Json)
  | table (origin : Origin) (entries : List (String × Item))
  | tables (elements : List (List (String × Item)))
deriving Inhabited, Repr

abbrev Entries : Type := List (String × Item)

namespace Entries

def find? (name : String) : Entries → Option Item
  | [] => none
  | (k, x) :: rest => if k == name then some x else find? name rest

def set (name : String) (x : Item) : Entries → Entries
  | [] => [(name, x)]
  | (k, y) :: rest => if k == name then (k, x) :: rest else (k, y) :: set name x rest

/-- The entries below a path changed. Tables that are missing on the way are implied. -/
def change (f : Entries → Option Entries) : List String → Entries → Option Entries
  | [], es => f es
  | name :: path, es =>
    match es.find? name with
    | none => (change f path []).map fun inner => es.set name (.table .implied inner)
    | some (.table origin inner) =>
      (change f path inner).map fun inner => es.set name (.table origin inner)
    | some (.tables (last :: others)) =>
      (change f path last).map fun last => es.set name (.tables (last :: others))
    | some _ => none

def openTable (name : String) (es : Entries) : Option Entries :=
  match es.find? name with
  | none => some (es.set name (.table .header []))
  | some (.table .implied inner) => some (es.set name (.table .header inner))
  | some _ => none

def openElement (name : String) (es : Entries) : Option Entries :=
  match es.find? name with
  | none => some (es.set name (.tables [[]]))
  | some (.tables elements) => some (es.set name (.tables ([] :: elements)))
  | some _ => none

def insert (v : Json) : List String → Entries → Option Entries
  | [], _ => none
  | [name], es =>
    match es.find? name with
    | none => some (es.set name (.value v))
    | some _ => none
  | name :: path, es =>
    match es.find? name with
    | none => (insert v path []).map fun inner => es.set name (.table .dotted inner)
    | some (.table origin inner) =>
      if origin == .header then none
      else (insert v path inner).map fun inner => es.set name (.table origin inner)
    | some _ => none

end Entries

mutual
def Item.toJson : Item → Json
  | .value v => v
  | .table _ es => .obj (entriesToJson es)
  | .tables elements => .arr (elementsToJson elements []) 

def entriesToJson : List (String × Item) → List (String × Json)
  | [] => []
  | (k, x) :: rest => (k, x.toJson) :: entriesToJson rest

def elementsToJson : List (List (String × Item)) → List Json → List Json
  | [], done => done
  | es :: rest, done => elementsToJson rest (.obj (entriesToJson es) :: done)
end

end AccessControl.Settings.Toml
