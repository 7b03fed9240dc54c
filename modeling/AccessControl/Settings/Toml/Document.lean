import AccessControl.Settings.Toml.Scalar
import AccessControl.Settings.Toml.Table

/-!
# TOML documents

A document is a sequence of lines: headers of tables and of elements of arrays, and values under
keys in the table opened last.
-/

namespace AccessControl.Settings.Toml

open Text

def isBareKey (c : Char) : Bool := isWordChar c || c == '-'

def keyPart (cs : List Char) : Step String :=
  match cs with
  | '"' :: r => lineString '"' true (r.length + 1) [] r
  | '\'' :: r => lineString '\'' false (r.length + 1) [] r
  | cs =>
    match cs.takeWhile isBareKey with
    | [] => none
    | name => some (String.ofList name, cs.dropWhile isBareKey)

def keyPath : Nat → List Char → Step (List String)
  | 0, _ => none
  | fuel + 1, cs =>
    match keyPart cs with
    | none => none
    | some (name, r) =>
      match dropBlank r with
      | '.' :: r => (keyPath fuel (dropBlank r)).map fun (path, r) => (name :: path, r)
      | r => some ([name], r)

def key? (cs : List Char) : Step (List String) := keyPath (cs.length + 1) cs

def dropLines : Nat → List Char → List Char
  | 0, cs => cs
  | fuel + 1, cs =>
    let r := dropComment (dropBlank cs)
    match newline? r with
    | some r => dropLines fuel r
    | none => r

def dropBetween (cs : List Char) : List Char := dropLines (cs.length + 1) cs

mutual
def value (depth : Nat) : Nat → List Char → Step Json
  | 0, _ => none
  | fuel + 1, cs =>
    match cs with
    | '[' :: r =>
      match depth with
      | 0 => none
      | depth + 1 => (elements depth fuel [] (dropBetween r)).map fun (xs, r) => (.arr xs, r)
    | '\x7b' :: r =>
      match depth with
      | 0 => none
      | depth + 1 =>
        match dropBlank r with
        | '\x7d' :: r => some (.obj [], r)
        | r => (inlineEntries depth fuel [] r).map fun (es, r) => (.obj (entriesToJson es), r)
    | cs => scalar? cs

def elements (depth : Nat) : Nat → List Json → List Char → Step (List Json)
  | 0, _, _ => none
  | fuel + 1, done, cs =>
    match cs with
    | ']' :: r => some (done.reverse, r)
    | cs =>
      match value depth fuel cs with
      | none => none
      | some (v, r) =>
        match dropBetween r with
        | ',' :: r => elements depth fuel (v :: done) (dropBetween r)
        | ']' :: r => some ((v :: done).reverse, r)
        | _ => none

def inlineEntries (depth : Nat) : Nat → Entries → List Char → Step Entries
  | 0, _, _ => none
  | fuel + 1, es, cs =>
    match key? cs with
    | some (path, '=' :: r) =>
      match value depth fuel (dropBlank r) with
      | none => none
      | some (v, r) =>
        match Entries.insert v path es with
        | none => none
        | some es =>
          match dropBlank r with
          | ',' :: r => inlineEntries depth fuel es (dropBlank r)
          | '\x7d' :: r => some (es, r)
          | _ => none
    | _ => none
end

def depthLimit : Nat := 79

def lineEnd (cs : List Char) : Option (List Char) :=
  let r := dropComment (dropBlank cs)
  if r.isEmpty then some [] else newline? r

/-- All tables of a document, and the one that is open. -/
structure State where
  root : Entries
  current : List String

def opened (element : Bool) (path : List String) (root : Entries) : Option Entries :=
  match path.getLast? with
  | some name =>
    Entries.change (if element then Entries.openElement name else Entries.openTable name)
      path.dropLast root
  | none => none

def header (cs : List Char) (s : State) : Step State :=
  let (element, cs) := match cs with | '[' :: r => (true, r) | r => (false, r)
  match key? (dropBlank cs) with
  | none => none
  | some (path, r) =>
    match opened element path s.root, element, r with
    | some root, true, ']' :: ']' :: r => some (⟨root, path⟩, r)
    | some root, false, ']' :: r => some (⟨root, path⟩, r)
    | _, _, _ => none

def pair (cs : List Char) (s : State) : Step State :=
  match key? cs with
  | some (path, '=' :: r) =>
    let r := dropBlank r
    match value depthLimit (r.length + 1) r with
    | none => none
    | some (v, r) =>
      (Entries.change (Entries.insert v path) s.current s.root).map
        fun root => (⟨root, s.current⟩, r)
  | _ => none

def lines : Nat → List Char → State → Option State
  | 0, _, _ => none
  | fuel + 1, cs, s =>
    let cs := dropBlank cs
    match cs with
    | [] => some s
    | c :: r =>
      if c == '#' || (newline? cs).isSome then
        match lineEnd cs with
        | some r => lines fuel r s
        | none => none
      else
        match (if c == '[' then header r s else pair cs s) with
        | none => none
        | some (s, r) =>
          match lineEnd r with
          | some r => lines fuel r s
          | none => none

def members? (text : String) : Option (List (String × Json)) :=
  let cs := text.toList
  let cs := match cs with | '\ufeff' :: r => r | cs => cs
  (lines (cs.length + 1) cs ⟨[], []⟩).map fun s => entriesToJson s.root

end AccessControl.Settings.Toml
