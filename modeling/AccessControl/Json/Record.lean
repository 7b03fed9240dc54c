import AccessControl.Json.Reading

/-!
# Records read from JSON

A record is written as an object, in which unknown names are passed over and no field comes twice,
or as an array of its fields in order, in which fields with a default may be left off the end.
-/

namespace AccessControl.Json

inductive Kind where
  | text
  | optionalText
  | flag
  | count (bound : Nat)
deriving DecidableEq, Repr

inductive Scalar where
  | text (s : String)
  | optionalText (s : Option String)
  | flag (b : Bool)
  | count (n : Nat)
deriving DecidableEq, Repr

/-- A field: the names it goes by, what it holds, and its value where it is left out. -/
structure Field where
  names : List String
  kind : Kind
  default? : Option Scalar

namespace Field

def required (name : String) (kind : Kind) : Field := ⟨[name], kind, none⟩

def withDefault (name : String) (kind : Kind) (v : Scalar) : Field := ⟨[name], kind, some v⟩

end Field

def unwanted : Reading → Fault
  | .hole f _ => f
  | _ => .mismatch

def Kind.read : Kind → Reading → Except Fault Scalar
  | .text, .str s => .ok (.text s)
  | .optionalText, .str s => .ok (.optionalText (some s))
  | .optionalText, .null => .ok (.optionalText none)
  | .flag, .bool b => .ok (.flag b)
  | .count bound, .int n =>
    if 0 ≤ n ∧ n < bound then .ok (.count n.toNat) else .error .mismatch
  | _, v => .error (unwanted v)

def fieldIndex (name : String) (fields : List Field) : Option Nat :=
  fields.findIdx? fun f => f.names.contains name

def readMembers (fields : List Field) :
    List (Option Scalar) → List (Option String × Reading) → Except Fault (List (Option Scalar))
  | slots, [] => .ok slots
  | _, (none, _) :: _ => .error .malformed
  | slots, (some name, v) :: rest =>
    match fieldIndex name fields with
    | none =>
      match v.skipFault with
      | some f => .error f
      | none => readMembers fields slots rest
    | some i =>
      match slots[i]?, fields[i]? with
      | some none, some field =>
        match field.kind.read v with
        | .error f => .error f
        | .ok s => readMembers fields (slots.set i (some s)) rest
      | _, _ => .error .mismatch

def fillDefaults : List Field → List (Option Scalar) → Except Fault (List Scalar)
  | [], _ => .ok []
  | field :: fields, slots =>
    let slot := (slots.head?.getD none).or field.default?
    match slot with
    | none => .error .mismatch
    | some s =>
      match fillDefaults fields slots.tail with
      | .error f => .error f
      | .ok rest => .ok (s :: rest)

def readItems : List Field → List Reading → Option Stop → Except Fault (List Scalar × List Reading)
  | [], items, _ => .ok ([], items)
  | field :: fields, [], stop =>
    match stop with
    | some s => .error s.onRead
    | none =>
      match field.default? with
      | none => .error .mismatch
      | some s =>
        match readItems fields [] stop with
        | .error f => .error f
        | .ok (rest, left) => .ok (s :: rest, left)
  | field :: fields, v :: vs, stop =>
    match field.kind.read v with
    | .error f => .error f
    | .ok s =>
      match readItems fields vs stop with
      | .error f => .error f
      | .ok (rest, left) => .ok (s :: rest, left)

/-- The scalars of a record. Items beyond the last field are the fault `surplus`, if it is one. -/
def readRecord (surplus : Option Fault) (fields : List Field) : Reading → Except Fault (List Scalar)
  | .obj members stop =>
    match readMembers fields (fields.map fun _ => none) members with
    | .error f => .error f
    | .ok slots =>
      match stop with
      | some s => .error s.onRead
      | none => fillDefaults fields slots
  | .arr items stop =>
    match readItems fields items stop with
    | .error f => .error f
    | .ok (scalars, left) =>
      match left, surplus, stop with
      | [], _, some s => .error s.onRead
      | _ :: _, some f, _ => .error f
      | _, _, _ => .ok scalars
  | v => .error (unwanted v)

def readAs {α : Type} (surplus : Option Fault) (fields : List Field)
    (build : List Scalar → Option α) (v : Reading) : Except Fault α :=
  match readRecord surplus fields v with
  | .error f => .error f
  | .ok scalars =>
    match build scalars with
    | some a => .ok a
    | none => .error .mismatch

def parseAs {α : Type} (fields : List Field) (build : List Scalar → Option α) (s : String) :
    Except Fault α :=
  let d := Document.ofText s
  match readAs (some .malformed) fields build d.root with
  | .error f => .error f
  | .ok a =>
    match d.tail with
    | some f => .error f
    | none => .ok a

def decodeAs {α : Type} (fields : List Field) (build : List Scalar → Option α) (v : Json) :
    Except Fault α :=
  readAs (some .mismatch) fields build v.reading

end AccessControl.Json
