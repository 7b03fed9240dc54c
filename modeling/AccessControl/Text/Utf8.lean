/-!
# Text as bytes

The UTF-8 form of a text and the strict reader of that form.
-/

namespace AccessControl.Text

def utf8 (cs : List Char) : List UInt8 := cs.flatMap String.utf8EncodeChar

def utf8Length (cs : List Char) : Nat := (utf8 cs).length

theorem utf8_nil : utf8 [] = [] := rfl

theorem utf8_cons (c : Char) (cs : List Char) :
    utf8 (c :: cs) = String.utf8EncodeChar c ++ utf8 cs := rfl

def continuation (b : UInt8) : Option Nat :=
  if b.toNat / 64 = 2 then some (b.toNat % 64) else none

def scalarFrom (least n : Nat) : Option Char :=
  if least ≤ n ∧ n.isValidChar then some (Char.ofNat n) else none

def takeChar : List UInt8 → Option (Char × List UInt8)
  | [] => none
  | a :: r =>
    let n := a.toNat
    if n < 0x80 then some (Char.ofNat n, r)
    else if n / 32 = 6 then
      match r with
      | b :: r => do
        let y ← continuation b
        let c ← scalarFrom 0x80 (n % 32 * 64 + y)
        some (c, r)
      | _ => none
    else if n / 16 = 14 then
      match r with
      | b :: c :: r => do
        let y ← continuation b
        let z ← continuation c
        let c ← scalarFrom 0x800 ((n % 16 * 64 + y) * 64 + z)
        some (c, r)
      | _ => none
    else if n / 8 = 30 then
      match r with
      | b :: c :: d :: r => do
        let x ← continuation b
        let y ← continuation c
        let z ← continuation d
        let c ← scalarFrom 0x10000 (((n % 8 * 64 + x) * 64 + y) * 64 + z)
        some (c, r)
      | _ => none
    else none

def ofUtf8Within : Nat → List UInt8 → Option (List Char)
  | _, [] => some []
  | 0, _ => none
  | fuel + 1, bytes =>
    match takeChar bytes with
    | some (c, r) => (ofUtf8Within fuel r).map (c :: ·)
    | none => none

def ofUtf8? (bytes : List UInt8) : Option (List Char) := ofUtf8Within bytes.length bytes

end AccessControl.Text
