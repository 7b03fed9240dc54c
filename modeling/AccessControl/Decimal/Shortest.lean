import AccessControl.Decimal.Binary64

/-!
# The shortest decimal that reads back

Of the decimals that round to a number, the one with fewest digits is chosen, and of those the
nearest. Each count of digits is tried in turn on the two grid points around the number.
-/

namespace AccessControl.Decimal

structure Digits where
  digits : Nat
  exponent : Int
deriving DecidableEq, Repr

namespace Binary64

/-- The reals that round to a magnitude, over one denominator: lower end, value, upper end. -/
structure Neighbourhood where
  low : Nat
  value : Nat
  high : Nat
  denominator : Nat
  closed : Bool

def neighbourhood (x : Binary64) : Neighbourhood :=
  let (m, q) := x.parts
  let scale := if 0 ≤ q then Nat.pow 2 q.toNat else 1
  let denominator := if 0 ≤ q then 4 else 4 * Nat.pow 2 (-q).toNat
  let below := if m = hiddenBit ∧ -1074 < q then 1 else 2
  { low := (4 * m - below) * scale
    value := 4 * m * scale
    high := (4 * m + 2) * scale
    denominator
    closed := m % 2 = 0 }

def Neighbourhood.contains (h : Neighbourhood) (n : Nat) (e : Int) : Bool :=
  let point := if 0 ≤ e then n * Nat.pow 10 e.toNat * h.denominator else n * h.denominator
  let unit := if 0 ≤ e then 1 else Nat.pow 10 (-e).toNat
  if h.closed then h.low * unit ≤ point && point ≤ h.high * unit
  else h.low * unit < point && point < h.high * unit

def floorLog10 (h : Neighbourhood) : Nat → Int → Int
  | 0, k => k
  | fuel + 1, k =>
    let fits :=
      if 0 ≤ k then Nat.pow 10 k.toNat * h.denominator ≤ h.value
      else h.denominator ≤ h.value * Nat.pow 10 (-k).toNat
    if fits then k else floorLog10 h fuel (k - 1)

/-- The grid point at or below the value, and twice its distance from the next one up. -/
def gridBelow (h : Neighbourhood) (e : Int) : Nat × Bool :=
  let num := if 0 ≤ e then h.value else h.value * Nat.pow 10 (-e).toNat
  let den := if 0 ≤ e then h.denominator * Nat.pow 10 e.toNat else h.denominator
  (num / den, den < 2 * (num % den))

def shortestFrom (h : Neighbourhood) (top : Int) : Nat → Nat → Digits
  | 0, n => ⟨(gridBelow h (top + 1 - n)).1, top + 1 - n⟩
  | fuel + 1, n =>
    let e : Int := top + 1 - n
    let (f, upperNearer) := gridBelow h e
    let lower := h.contains f e
    let upper := h.contains (f + 1) e
    if lower && (!upper || !upperNearer) then ⟨f, e⟩
    else if upper then ⟨f + 1, e⟩
    else shortestFrom h top fuel (n + 1)

def shortest (x : Binary64) : Digits :=
  let h := x.neighbourhood
  shortestFrom h (floorLog10 h 700 330) 17 1

def stripZeros : Nat → Digits → Digits
  | 0, d => d
  | fuel + 1, d =>
    if d.digits ≠ 0 ∧ d.digits % 10 = 0 then stripZeros fuel ⟨d.digits / 10, d.exponent + 1⟩ else d

/-- How a magnitude is written: positional from 1e-5 up to 1e16 with a fraction always present,
else with an exponent. -/
def renderMagnitude (x : Binary64) : String :=
  if x.magnitude = 0 then "0.0"
  else
    let d := stripZeros 20 x.shortest
    let ds := Nat.toDigits 10 d.digits
    let point : Int := ds.length + d.exponent
    if 0 ≤ d.exponent ∧ point ≤ 16 then
      String.ofList (ds ++ List.replicate d.exponent.toNat '0') ++ ".0"
    else if 0 < point ∧ point ≤ 16 then
      String.ofList (ds.take point.toNat ++ '.' :: ds.drop point.toNat)
    else if -5 < point ∧ point ≤ 0 then
      "0." ++ String.ofList (List.replicate (-point).toNat '0' ++ ds)
    else
      let tail := if ds.length = 1 then [] else '.' :: ds.drop 1
      String.ofList (ds.take 1 ++ tail) ++ "e" ++ toString (point - 1)

def render? (x : Binary64) : Option String :=
  if x.isFinite then
    some (if x.negative then "-" ++ x.renderMagnitude else x.renderMagnitude)
  else none

end Binary64

end AccessControl.Decimal
