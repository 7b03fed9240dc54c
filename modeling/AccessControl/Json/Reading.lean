import AccessControl.Json.Basic
import AccessControl.Text.Ascii
import AccessControl.Text.Utf8

/-!
# Reading JSON text

Every text reads as a tree. Where it stops being JSON the tree has a hole, and nothing follows it. A
hole knows two faults, one for a reader that wants the value there and one for a reader that only
passes over it: a number beyond the range or a lone surrogate is no value, but it can be passed
over. So the first fault a typed reader meets in the tree is the first one it would meet in the
text.
-/

namespace AccessControl.Json

open Text Decimal

inductive Fault where
  | malformed
  | truncated
  | mismatch
deriving DecidableEq, Repr

/-- Where a container ends too early, as one who reads it and one who passes over it see it. -/
structure Stop where
  onRead : Fault
  onSkip : Fault
deriving DecidableEq, Repr

def Stop.at (f : Fault) : Stop := ⟨f, f⟩

inductive Reading where
  | null
  | bool (b : Bool)
  | int (n : Int)
  | float (x : Binary64)
  | str (s : String)
  | arr (items : List Reading) (stop : Option Stop)
  | obj (members : List (Option String × Reading)) (stop : Option Stop)
  | hole (onRead : Fault) (onSkip : Option Fault)
deriving Inhabited, Repr

namespace Reading

/-- A piece of tree and the text after it; no text once the reading has stopped. -/
structure Step where
  value : Reading
  rest : Option (List Char)

def stopped (f : Fault) : Step := ⟨.hole f (some f), none⟩

def dropBlank : List Char → List Char
  | [] => []
  | c :: cs => if c = ' ' ∨ c = '\n' ∨ c = '\t' ∨ c = '\r' then dropBlank cs else c :: cs

def faultAt : List Char → Fault
  | [] => .truncated
  | _ :: _ => .malformed

def word (v : Reading) : List Char → List Char → Step
  | [], cs => ⟨v, some cs⟩
  | _ :: _, [] => stopped .truncated
  | p :: ps, c :: cs => if p = c then word v ps cs else stopped .malformed

def fourHex (cs : List Char) : Except Fault (Nat × List Char) :=
  match cs with
  | a :: b :: c :: d :: r =>
    match natIn 16 [a, b, c, d] with
    | some n => .ok (n, r)
    | none => .error .malformed
  | _ => if utf8Length cs < 4 then .error .truncated else .error .malformed

def unicodeEscape (cs : List Char) : Except Fault (Option Char × List Char) :=
  match fourHex cs with
  | .error f => .error f
  | .ok (n, r) =>
    if n < 0xD800 ∨ 0xDFFF < n then .ok (some (Char.ofNat n), r)
    else if 0xDC00 ≤ n then .ok (none, r)
    else
      match r with
      | [] => .error .truncated
      | ['\\'] => .error .truncated
      | '\\' :: 'u' :: r' =>
        match fourHex r' with
        | .error f => .error f
        | .ok (m, r'') =>
          if 0xDC00 ≤ m ∧ m ≤ 0xDFFF then
            .ok (some (Char.ofNat (0x10000 + (n - 0xD800) * 0x400 + (m - 0xDC00))), r'')
          else .ok (none, r)
      | _ => .ok (none, r)

def simpleEscape (c : Char) : Option Char :=
  if c = '"' then some '"'
  else if c = '\\' then some '\\'
  else if c = '/' then some '/'
  else if c = 'b' then some '\x08'
  else if c = 'f' then some '\x0c'
  else if c = 'n' then some '\n'
  else if c = 'r' then some '\r'
  else if c = 't' then some '\t'
  else none

inductive Quoted where
  | closed (text : Option String) (rest : List Char)
  | broken (onRead onSkip : Fault)

/-- A string after its opening quote. The text so far is kept backwards, and given up at the first
escape that stands for no character. -/
def quotedWithin : Nat → Option (List Char) → List Char → Quoted
  | 0, _, _ => .broken .truncated .truncated
  | fuel + 1, acc, cs =>
    let broken (f : Fault) : Quoted := .broken (if acc.isSome then f else .malformed) f
    match cs with
    | [] => broken .truncated
    | c :: r =>
      if c = '"' then .closed (acc.map fun a => String.ofList a.reverse) r
      else if c = '\\' then
        match r with
        | [] => broken .truncated
        | 'u' :: r =>
          match unicodeEscape r with
          | .error f => broken f
          | .ok (some d, r) => quotedWithin fuel (acc.map (d :: ·)) r
          | .ok (none, r) => quotedWithin fuel none r
        | d :: r =>
          match simpleEscape d with
          | some e => quotedWithin fuel (acc.map (e :: ·)) r
          | none => broken .malformed
      else if c.toNat < 0x20 then broken .malformed
      else quotedWithin fuel (acc.map (c :: ·)) r

def quoted (cs : List Char) : Quoted := quotedWithin (cs.length + 1) (some []) cs

structure Numeral where
  negative : Bool
  whole : List Char
  fraction : Option (List Char)
  exponent : Option (Bool × List Char)

def inIntegerRange (n : Int) : Bool := -0x8000000000000000 ≤ n && n < 0x10000000000000000

def Numeral.scaled (x : Numeral) : Binary64 :=
  let fraction := x.fraction.getD []
  let exponent : Int :=
    match x.exponent with
    | some (true, ds) => -(decimal ds : Int)
    | some (false, ds) => decimal ds
    | none => 0
  .ofDecimal x.negative (decimal (x.whole ++ fraction)) (exponent - fraction.length)

/-- Integers in range stay exact; a negative zero, and all else, is a floating point number. -/
def Numeral.value (x : Numeral) : Reading :=
  let n : Int := if x.negative then -(decimal x.whole : Int) else decimal x.whole
  if x.fraction.isNone && x.exponent.isNone && inIntegerRange n && !(x.negative && n == 0) then
    .int n
  else if x.scaled.isFinite then .float x.scaled
  else .hole .malformed none

def digitRun (cs : List Char) : Option (List Char × List Char) :=
  match cs.takeWhile isDigit with
  | [] => none
  | ds => some (ds, cs.dropWhile isDigit)

def unfinished (cs : List Char) : Step := ⟨.hole (faultAt cs) (some .malformed), none⟩

def numberExponent (x : Numeral) (cs : List Char) : Step :=
  match cs with
  | e :: r =>
    if e = 'e' ∨ e = 'E' then
      let (negative, r) :=
        match r with
        | '-' :: r => (true, r)
        | '+' :: r => (false, r)
        | r => (false, r)
      match digitRun r with
      | some (ds, r) => ⟨Numeral.value { x with exponent := some (negative, ds) }, some r⟩
      | none => unfinished r
    else ⟨x.value, some cs⟩
  | [] => ⟨x.value, some []⟩

def numberFraction (x : Numeral) (cs : List Char) : Step :=
  match cs with
  | '.' :: r =>
    match digitRun r with
    | some (ds, r) => numberExponent { x with fraction := some ds } r
    | none => unfinished r
  | _ => numberExponent x cs

def number (negative : Bool) (cs : List Char) : Step :=
  match digitRun cs with
  | none => unfinished cs
  | some (ds, r) =>
    match ds with
    | '0' :: _ :: _ => stopped .malformed
    | _ => numberFraction ⟨negative, ds, none, none⟩ r

mutual
def value : Nat → List Char → Step
  | 0, _ => stopped .truncated
  | fuel + 1, cs =>
    match dropBlank cs with
    | [] => stopped .truncated
    | 'n' :: r => word .null ['u', 'l', 'l'] r
    | 't' :: r => word (.bool true) ['r', 'u', 'e'] r
    | 'f' :: r => word (.bool false) ['a', 'l', 's', 'e'] r
    | '-' :: r => number true r
    | '"' :: r =>
      match quoted r with
      | .closed (some s) r => ⟨.str s, some r⟩
      | .closed none r => ⟨.hole .malformed none, some r⟩
      | .broken onRead onSkip => ⟨.hole onRead (some onSkip), none⟩
    | '[' :: r =>
      match dropBlank r with
      | [] => ⟨.arr [] (some (.at .truncated)), none⟩
      | ']' :: r => ⟨.arr [] none, some r⟩
      | r => items fuel [] r
    | '\x7b' :: r =>
      match dropBlank r with
      | [] => ⟨.obj [] (some (.at .truncated)), none⟩
      | '\x7d' :: r => ⟨.obj [] none, some r⟩
      | r => members fuel [] r
    | c :: r => if isDigit c then number false (c :: r) else stopped .malformed

def items : Nat → List Reading → List Char → Step
  | 0, done, _ => ⟨.arr done.reverse (some (.at .truncated)), none⟩
  | fuel + 1, done, cs =>
    match value fuel cs with
    | ⟨v, none⟩ => ⟨.arr (v :: done).reverse none, none⟩
    | ⟨v, some r⟩ =>
      match dropBlank r with
      | ']' :: r => ⟨.arr (v :: done).reverse none, some r⟩
      | ',' :: r =>
        match dropBlank r with
        | ']' :: _ => ⟨.arr (.hole .malformed (some .malformed) :: v :: done).reverse none, none⟩
        | r => items fuel (v :: done) r
      | r => ⟨.arr (v :: done).reverse (some (.at (faultAt r))), none⟩

def members : Nat → List (Option String × Reading) → List Char → Step
  | 0, done, _ => ⟨.obj done.reverse (some (.at .truncated)), none⟩
  | fuel + 1, done, cs =>
    match cs with
    | '"' :: r =>
      match quoted r with
      | .broken onRead onSkip =>
        ⟨.obj done.reverse (some ⟨onRead, onSkip⟩), none⟩
      | .closed name r =>
        match dropBlank r with
        | ':' :: r =>
          match value fuel r with
          | ⟨v, none⟩ => ⟨.obj ((name, v) :: done).reverse none, none⟩
          | ⟨v, some r⟩ =>
            match dropBlank r with
            | '\x7d' :: r => ⟨.obj ((name, v) :: done).reverse none, some r⟩
            | ',' :: r => members fuel ((name, v) :: done) (dropBlank r)
            | r => ⟨.obj ((name, v) :: done).reverse (some (.at (faultAt r))), none⟩
        | r => ⟨.obj ((name, .hole (faultAt r) (some (faultAt r))) :: done).reverse none, none⟩
    | r => ⟨.obj done.reverse (some (.at (faultAt r))), none⟩
end

mutual
/-- The fault met when a tree is passed over. -/
def skipFault : Reading → Option Fault
  | .arr items stop => (skipItems items).or (stop.map (·.onSkip))
  | .obj members stop => (skipMembers members).or (stop.map (·.onSkip))
  | .hole _ f => f
  | _ => none

def skipItems : List Reading → Option Fault
  | [] => none
  | v :: vs => (skipFault v).or (skipItems vs)

def skipMembers : List (Option String × Reading) → Option Fault
  | [] => none
  | (_, v) :: ms => (skipFault v).or (skipMembers ms)
end

end Reading

structure Document where
  root : Reading
  tail : Option Fault

def Document.ofText (s : String) : Document :=
  let cs := s.toList
  match Reading.value (2 * cs.length + 2) cs with
  | ⟨v, none⟩ => ⟨v, none⟩
  | ⟨v, some r⟩ => ⟨v, if (Reading.dropBlank r).isEmpty then none else some .malformed⟩

mutual
def reading : Json → Reading
  | .null => .null
  | .bool b => .bool b
  | .int n => .int n
  | .float x => .float x
  | .str s => .str s
  | .arr items => .arr (readings items) none
  | .obj members => .obj (memberReadings members) none

def readings : List Json → List Reading
  | [] => []
  | v :: vs => reading v :: readings vs

def memberReadings : List (String × Json) → List (Option String × Reading)
  | [] => []
  | (k, v) :: ms => (some k, reading v) :: memberReadings ms
end

mutual
def Reading.value? (depth : Nat) : Reading → Except Fault Json
  | .null => .ok .null
  | .bool b => .ok (.bool b)
  | .int n => .ok (.int n)
  | .float x => .ok (.float x)
  | .str s => .ok (.str s)
  | .arr items stop =>
    match depth with
    | 0 => .error .malformed
    | depth + 1 =>
      match Reading.values? depth items with
      | .error f => .error f
      | .ok vs =>
        match stop with
        | some s => .error s.onRead
        | none => .ok (.arr vs)
  | .obj members stop =>
    match depth with
    | 0 => .error .malformed
    | depth + 1 =>
      match Reading.memberValues? depth members with
      | .error f => .error f
      | .ok ms =>
        match stop with
        | some s => .error s.onRead
        | none => .ok (.obj ms)
  | .hole f _ => .error f

def Reading.values? (depth : Nat) : List Reading → Except Fault (List Json)
  | [] => .ok []
  | v :: vs =>
    match Reading.value? depth v with
    | .error f => .error f
    | .ok v =>
      match Reading.values? depth vs with
      | .error f => .error f
      | .ok vs => .ok (v :: vs)

def Reading.memberValues? (depth : Nat) :
    List (Option String × Reading) → Except Fault (List (String × Json))
  | [] => .ok []
  | (none, _) :: _ => .error .malformed
  | (some k, v) :: ms =>
    match Reading.value? depth v with
    | .error f => .error f
    | .ok v =>
      match Reading.memberValues? depth ms with
      | .error f => .error f
      | .ok ms => .ok ((k, v) :: ms)
end

def depthLimit : Nat := 127

def parse (s : String) : Except Fault Json :=
  let d := Document.ofText s
  match d.root.value? depthLimit with
  | .error f => .error f
  | .ok v =>
    match d.tail with
    | some f => .error f
    | none => .ok v

end AccessControl.Json
