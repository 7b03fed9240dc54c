import AccessControl.Text.Utf8

/-!
# Where bytes stop being text

The place and length of the first bytes that are no UTF-8, and a reader that puts one replacement
character for each such piece.
-/

namespace AccessControl.Text

def sequenceShape (a : Nat) : Option (Nat × Nat × Nat) :=
  if a < 0x80 then some (1, 0, 0)
  else if 0xC2 ≤ a ∧ a ≤ 0xDF then some (2, 0x80, 0xBF)
  else if a = 0xE0 then some (3, 0xA0, 0xBF)
  else if a = 0xED then some (3, 0x80, 0x9F)
  else if 0xE1 ≤ a ∧ a ≤ 0xEF then some (3, 0x80, 0xBF)
  else if a = 0xF0 then some (4, 0x90, 0xBF)
  else if 0xF1 ≤ a ∧ a ≤ 0xF3 then some (4, 0x80, 0xBF)
  else if a = 0xF4 then some (4, 0x80, 0x8F)
  else none

/-- The length of the piece at the start of bytes that is no character; none if the bytes end
within one. -/
def brokenLength (bytes : List UInt8) : Option Nat :=
  match bytes with
  | [] => none
  | a :: r =>
    match sequenceShape a.toNat with
    | none => some 1
    | some (n, low, high) =>
      match r with
      | [] => none
      | b :: r =>
        if b.toNat < low ∨ high < b.toNat then some 1
        else
          let good := (r.take (n - 2)).takeWhile fun c => (continuation c).isSome
          if good.length = r.length then none else some (2 + good.length)

inductive Utf8Fault where
  | invalid (length index : Nat)
  | incomplete (index : Nat)
deriving DecidableEq, Repr

def Utf8Fault.message : Utf8Fault → String
  | .invalid n i =>
    "invalid utf-8 sequence of " ++ toString n ++ " bytes from index " ++ toString i
  | .incomplete i => "incomplete utf-8 byte sequence from index " ++ toString i

def utf8FaultFrom : Nat → Nat → List UInt8 → Option Utf8Fault
  | _, _, [] => none
  | 0, _, _ => none
  | fuel + 1, i, bytes =>
    match takeChar bytes with
    | some (_, r) => utf8FaultFrom fuel (i + (bytes.length - r.length)) r
    | none =>
      match brokenLength bytes with
      | some n => some (.invalid n i)
      | none => some (.incomplete i)

def utf8Fault? (bytes : List UInt8) : Option Utf8Fault := utf8FaultFrom bytes.length 0 bytes

def lossyWithin : Nat → List UInt8 → List Char
  | _, [] => []
  | 0, _ => []
  | fuel + 1, bytes =>
    match takeChar bytes with
    | some (c, r) => c :: lossyWithin fuel r
    | none =>
      match brokenLength bytes with
      | some n => Char.ofNat 0xFFFD :: lossyWithin fuel (bytes.drop n)
      | none => [Char.ofNat 0xFFFD]

def ofUtf8Lossy (bytes : List UInt8) : List Char := lossyWithin bytes.length bytes

end AccessControl.Text
