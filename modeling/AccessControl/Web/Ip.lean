import AccessControl.Text.Ascii

/-!
# Numeric hosts

A version 4 address is one number, a version 6 address eight. Both are read in every form that
addresses of the web allow and written in one.
-/

namespace AccessControl.Web

open Text

namespace V4

def part (cs : List Char) : Option Nat :=
  match cs with
  | [] => none
  | '0' :: x :: r =>
    if x = 'x' ∨ x = 'X' then
      match r with
      | [] => some 0
      | r => natIn 16 r
    else natIn 8 (x :: r)
  | cs => natIn 10 cs

def parts (cs : List Char) : List (List Char) :=
  let ps := splitOn '.' cs
  if 1 < ps.length ∧ ps.getLast? = some [] then ps.dropLast else ps

def endsInNumber (cs : List Char) : Bool :=
  match (parts cs).getLast? with
  | some last => (!last.isEmpty && last.all isDigit) || (part last).isSome
  | none => false

def join : Nat → List Nat → Option Nat
  | _, [] => none
  | k, [n] => if n < Nat.pow 256 k then some n else none
  | 0, _ => none
  | k + 1, n :: rest => if n < 256 then (join k rest).map (n * Nat.pow 256 k + ·) else none

/-- Up to four parts; the last one fills all bytes that are left. -/
def parse? (cs : List Char) : Option Nat := do
  let ns ← (parts cs).mapM part
  join 4 ns

def text (n : Nat) : String :=
  let byte (k : Nat) : String := toString (n / Nat.pow 256 k % 256)
  byte 3 ++ "." ++ byte 2 ++ "." ++ byte 1 ++ "." ++ byte 0

def strict? (cs : List Char) : Option (List Nat) := do
  let ps := splitOn '.' cs
  let ns ← ps.mapM fun p =>
    match p with
    | '0' :: _ :: _ => none
    | p => if p.length ≤ 3 ∧ p.all isDigit then natIn 10 p else none
  if ns.length = 4 ∧ ns.all (· < 256) then some ns else none

end V4

namespace V6

structure Pieces where
  before : List Nat
  after : Option (List Nat)

def Pieces.count (p : Pieces) : Nat :=
  p.before.length + (match p.after with | some a => 1 + a.length | none => 0)

def Pieces.push (p : Pieces) (n : Nat) : Pieces :=
  match p.after with
  | some a => { p with after := some (a ++ [n]) }
  | none => { p with before := p.before ++ [n] }

def Pieces.whole (p : Pieces) : Option (List Nat) :=
  match p.after with
  | some a => some (p.before ++ List.replicate (8 - p.before.length - a.length) 0 ++ a)
  | none => if p.before.length = 8 then some p.before else none

def readWithin : Nat → Pieces → List Char → Option Pieces
  | 0, _, _ => none
  | _, p, [] => some p
  | fuel + 1, p, c :: r =>
    if p.count = 8 then none
    else if c = ':' then
      if p.after.isSome then none else readWithin fuel { p with after := some [] } r
    else
      let cs := c :: r
      let digits := (cs.take 4).takeWhile isHexDigit
      let rest := cs.drop digits.length
      match rest with
      | '.' :: _ =>
        if digits.isEmpty ∨ 6 < p.count then none
        else
          match V4.strict? cs with
          | some [w, x, y, z] => some ((p.push (w * 256 + x)).push (y * 256 + z))
          | _ => none
      | [] => (natIn 16 digits).map p.push
      | ':' :: rest =>
        if rest.isEmpty then none
        else
          match natIn 16 digits with
          | some n => readWithin fuel (p.push n) rest
          | none => none
      | _ => none

def parse? (cs : List Char) : Option (List Nat) := do
  let p ←
    match cs with
    | ':' :: ':' :: r => readWithin (r.length + 1) ⟨[], some []⟩ r
    | ':' :: _ => none
    | cs => readWithin (cs.length + 1) ⟨[], none⟩ cs
  p.whole

def longestZeros : Nat → List Nat → Nat × Nat → Nat × Nat
  | _, [], best => best
  | i, n :: ns, best =>
    let run := ((n :: ns).takeWhile (· == 0)).length
    longestZeros (i + 1) ns (if best.2 < run then (i, run) else best)

def hex (ns : List Nat) : String := ":".intercalate (ns.map fun n => String.ofList (hexDigits n))

def text (ns : List Nat) : String :=
  let (start, run) := longestZeros 0 ns (0, 1)
  if run < 2 then hex ns else hex (ns.take start) ++ "::" ++ hex (ns.drop (start + run))

end V6

end AccessControl.Web
