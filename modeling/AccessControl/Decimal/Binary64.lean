/-!
# Binary floating point numbers of 64 bits

A number is its bit pattern. A decimal is read to the nearest number, a half going to the even one,
by exact arithmetic on naturals.
-/

namespace AccessControl.Decimal

structure Binary64 where
  bits : UInt64
deriving DecidableEq, Repr, Inhabited

namespace Binary64

def infinityBits : Nat := 0x7FF0000000000000

def signBit : Nat := 0x8000000000000000

def hiddenBit : Nat := 0x10000000000000

def negative (x : Binary64) : Bool := signBit ≤ x.bits.toNat

def magnitude (x : Binary64) : Nat := x.bits.toNat % signBit

def isFinite (x : Binary64) : Bool := x.magnitude < infinityBits

def parts (x : Binary64) : Nat × Int :=
  let e : Nat := x.magnitude / hiddenBit
  let m := x.magnitude % hiddenBit
  if e = 0 then (m, -1074) else (m + hiddenBit, Int.ofNat e - 1075)

def ofMagnitude (negative : Bool) (n : Nat) : Binary64 :=
  ⟨UInt64.ofNat (if negative then n + signBit else n)⟩

def infinity (negative : Bool) : Binary64 := ofMagnitude negative infinityBits

def notANumber : Binary64 := ⟨0x7FF8000000000000⟩

def roundHalfEven (n d : Nat) : Nat :=
  let q := n / d
  let r := n % d
  if 2 * r < d then q
  else if d < 2 * r then q + 1
  else if q % 2 = 0 then q else q + 1

def floorLog2 (n d : Nat) : Int :=
  let k : Int := (n.log2 : Int) - (d.log2 : Int)
  let fits := if 0 ≤ k then d * Nat.pow 2 k.toNat ≤ n else d ≤ n * Nat.pow 2 (-k).toNat
  if fits then k else k - 1

def magnitudeOf (n d : Nat) : Nat :=
  if n = 0 then 0
  else
    let t := max (floorLog2 n d - 52) (-1074)
    let m :=
      if 0 ≤ t then roundHalfEven n (d * Nat.pow 2 t.toNat)
      else roundHalfEven (n * Nat.pow 2 (-t).toNat) d
    min ((t + 1074).toNat * hiddenBit + m) infinityBits

/-- The number nearest to `m * 10 ^ e`. Exponents far outside the range are not multiplied out. -/
def ofDecimal (negative : Bool) (m : Nat) (e : Int) : Binary64 :=
  let size : Int := (Nat.toDigits 10 m).length + e
  if m = 0 then ofMagnitude negative 0
  else if 320 < size then infinity negative
  else if size < -340 then ofMagnitude negative 0
  else if 0 ≤ e then ofMagnitude negative (magnitudeOf (m * Nat.pow 10 e.toNat) 1)
  else ofMagnitude negative (magnitudeOf m (Nat.pow 10 (-e).toNat))

end Binary64

end AccessControl.Decimal
