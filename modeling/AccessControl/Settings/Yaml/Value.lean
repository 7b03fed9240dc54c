import AccessControl.Decimal.Reader
import AccessControl.Json.Basic
import AccessControl.Settings.Yaml.Node

/-!
# The value of a YAML document

A plain scalar is what it looks like: null, a truth value, a number, else text. The top of a
document has to be a mapping, or nothing at all. Keys are text however they look, and of two equal
keys the last one counts.
-/

namespace AccessControl.Settings.Yaml

open Text Decimal

def null? (s : String) : Option Json :=
  if ["null", "Null", "NULL", "~"].contains s then some .null else none

def bool? (s : String) : Option Json :=
  if ["true", "True", "TRUE"].contains s then some (.bool true)
  else if ["false", "False", "FALSE"].contains s then some (.bool false)
  else none

def isPaddedNumber (cs : List Char) : Bool :=
  match (match cs with | '-' :: r => r | '+' :: r => r | r => r) with
  | '0' :: d :: r => (d :: r).all isDigit
  | _ => false

def unsigned? (cs : List Char) : Option Nat :=
  match cs with
  | '0' :: 'x' :: r => natIn 16 r
  | '0' :: 'o' :: r => natIn 8 r
  | '0' :: 'b' :: r => natIn 2 r
  | r => natIn 10 r

def int? (cs : List Char) : Option Json :=
  if isPaddedNumber cs then none
  else
    match cs with
    | '-' :: r => do
      let n ← unsigned? r
      if n ≤ Nat.pow 2 127 then some (.int (-(n : Int))) else none
    | cs => do
      let n ← unsigned? (match cs with | '+' :: r => r | r => r)
      if n < Nat.pow 2 128 then some (.int n) else none

def float? (cs : List Char) : Option Json :=
  let special (names : List String) (cs : List Char) : Bool := names.contains (String.ofList cs)
  let infinities := [".inf", ".Inf", ".INF"]
  if special infinities (match cs with | '+' :: r => r | r => r) then
    some (.float (.infinity false))
  else if special ["-.inf", "-.Inf", "-.INF"] cs then some (.float (.infinity true))
  else if special [".nan", ".NaN", ".NAN"] cs then some (.float .notANumber)
  else
    match number? cs with
    | some x => if x.isFinite then some (.float x) else none
    | none => none

def resolve (s : String) : Json :=
  let cs := s.toList
  if cs.isEmpty then .null
  else
    ((null? s).or <| (bool? s).or <| (int? cs).or <|
      if isPaddedNumber cs then none else float? cs).getD (.str s)

def isLocalTag (tag : Option String) : Bool :=
  match tag with
  | some t => t.startsWith "!"
  | none => false

/-- A scalar by its tag. Tags of no standing meaning make text; local tags have no value here. -/
def scalarValue (tag : Option String) (plain : Bool) (s : String) : Option Json :=
  match tag with
  | none => some (if plain then resolve s else .str s)
  | some t =>
    if t.startsWith "!" then none
    else
      match t with
      | "tag:yaml.org,2002:null" => null? s
      | "tag:yaml.org,2002:bool" => bool? s
      | "tag:yaml.org,2002:int" => int? s.toList
      | "tag:yaml.org,2002:float" => float? s.toList
      | _ => some (.str s)

/-- What an anchor stands for once its node is complete. -/
structure Target where
  text : Option String
  value : Option Json
  jumps : Nat
  depth : Nat

structure Anchor where
  id : Nat
  name : String
  target : Option Target

structure Anchors where
  count : Nat
  entries : List Anchor

namespace Anchors

def begin (as : Anchors) : Option String → Anchors
  | some name => ⟨as.count + 1, ⟨as.count, name, none⟩ :: as.entries⟩
  | none => as

def complete (as : Anchors) (id : Nat) (anchor : Option String) (t : Target) : Anchors :=
  match anchor with
  | some _ =>
    let complete (a : Anchor) := if a.id == id then { a with target := some t } else a
    { as with entries := as.entries.map complete }
  | none => as

def find? (as : Anchors) (name : String) : Option Target :=
  (as.entries.find? fun a => a.name == name).bind (·.target)

end Anchors

/-- The number of nodes and of ends of collections, by which repetition is bounded. -/
def Node.events : Node → Nat
  | .alias _ => 1
  | .scalar _ _ _ => 1
  | .sequence _ xs => 2 + eventsOfAll xs
  | .mapping _ ps => 2 + eventsOfPairs ps
where
  eventsOfAll : List Node → Nat
    | [] => 0
    | x :: xs => x.events + eventsOfAll xs
  eventsOfPairs : List (Node × Node) → Nat
    | [] => 0
    | (k, v) :: ps => k.events + v.events + eventsOfPairs ps

def keyText (as : Anchors) : Node → Option (String × Nat × Anchors)
  | .scalar p plain s =>
    let t : Target := ⟨some s, scalarValue p.tag plain s, 0, 0⟩
    some (s, 0, (as.begin p.anchor).complete as.count p.anchor t)
  | .alias name => do
    let t ← as.find? name
    let s ← t.text
    some (s, 1, as)
  | _ => none

structure Evaluated (α : Type) where
  value : α
  jumps : Nat
  depth : Nat
  anchors : Anchors

mutual
def Node.value (as : Anchors) : Node → Option (Evaluated Json)
  | .alias name => do
    let t ← as.find? name
    let v ← t.value
    some ⟨v, t.jumps + 1, t.depth, as⟩
  | .scalar p plain s => do
    let v ← scalarValue p.tag plain s
    some ⟨v, 0, 0, (as.begin p.anchor).complete as.count p.anchor ⟨some s, some v, 0, 0⟩⟩
  | .sequence p xs =>
    if isLocalTag p.tag then none
    else do
      let r ← valuesOf (as.begin p.anchor) xs
      let v := Json.arr r.value
      some ⟨v, r.jumps, r.depth + 1,
        r.anchors.complete as.count p.anchor ⟨none, some v, r.jumps, r.depth + 1⟩⟩
  | .mapping p ps =>
    if isLocalTag p.tag then none
    else do
      let r ← membersOf (as.begin p.anchor) ps
      let v := Json.obj (Json.ofPairs r.value)
      some ⟨v, r.jumps, r.depth + 1,
        r.anchors.complete as.count p.anchor ⟨none, some v, r.jumps, r.depth + 1⟩⟩

def valuesOf (as : Anchors) : List Node → Option (Evaluated (List Json))
  | [] => some ⟨[], 0, 0, as⟩
  | x :: xs => do
    let a ← x.value as
    let r ← valuesOf a.anchors xs
    some ⟨a.value :: r.value, a.jumps + r.jumps, max a.depth r.depth, r.anchors⟩

def membersOf (as : Anchors) : List (Node × Node) → Option (Evaluated (List (String × Json)))
  | [] => some ⟨[], 0, 0, as⟩
  | (k, x) :: ps => do
    let (name, n, as) ← keyText as k
    let a ← x.value as
    let r ← membersOf a.anchors ps
    some ⟨(name, a.value) :: r.value, n + a.jumps + r.jumps, max a.depth r.depth, r.anchors⟩
end

def depthLimit : Nat := 128

def membersOfDocument : Option Node → Option (List (String × Json))
  | none => some []
  | some (.scalar _ _ s) => if s.isEmpty then some [] else none
  | some (.mapping _ ps) => do
    let r ← membersOf ⟨0, []⟩ ps
    let n := 2 + Node.events.eventsOfPairs ps
    if r.depth < depthLimit && r.jumps ≤ 100 * n then some (Json.ofPairs r.value) else none
  | some _ => none

def members? (s : String) : Option (List (String × Json)) := do
  let ts ← Token.ofText? s.toList
  let doc ← Node.ofTokens? ts
  membersOfDocument doc

end AccessControl.Settings.Yaml
