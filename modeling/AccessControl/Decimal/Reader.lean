import AccessControl.Decimal.Binary64
import AccessControl.Text.Ascii

/-!
# Reading decimals

Numbers as programs usually take them: digits with a point anywhere among them or none, and an
exponent.
-/

namespace AccessControl.Decimal

open Text

def exponent? : List Char → Option Int
  | [] => some 0
  | e :: r =>
    if e = 'e' ∨ e = 'E' then
      match r with
      | '-' :: ds => (natIn 10 ds).map fun n => -(n : Int)
      | '+' :: ds => (natIn 10 ds).map fun n => (n : Int)
      | ds => (natIn 10 ds).map fun n => (n : Int)
    else none

def magnitude? (negative : Bool) (cs : List Char) : Option Binary64 :=
  let whole := cs.takeWhile isDigit
  let (fraction, rest) :=
    match cs.dropWhile isDigit with
    | '.' :: r => (r.takeWhile isDigit, r.dropWhile isDigit)
    | r => ([], r)
  if whole.isEmpty && fraction.isEmpty then none
  else
    (exponent? rest).map fun e =>
      .ofDecimal negative (decimal (whole ++ fraction)) (e - fraction.length)

def number? : List Char → Option Binary64
  | '-' :: r => magnitude? true r
  | '+' :: r => magnitude? false r
  | r => magnitude? false r

end AccessControl.Decimal
