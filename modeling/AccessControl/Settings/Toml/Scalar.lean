import AccessControl.Decimal.Reader
import AccessControl.Json.Basic
import AccessControl.Text.Ascii

/-!
# Scalars of a TOML text

Strings, numbers, truth values and dates. Each reader takes a text from its front and gives the
rest.
-/

namespace AccessControl.Settings.Toml

open Text Decimal

abbrev Step (α : Type) : Type := Option (α × List Char)

def dropBlank (cs : List Char) : List Char := cs.dropWhile fun c => c == ' ' || c == '\t'

def newline? : List Char → Option (List Char)
  | '\n' :: r => some r
  | '\r' :: '\n' :: r => some r
  | _ => none

def isPrintable (c : Char) : Bool := c == '\t' || (0x20 ≤ c.toNat && c.toNat != 0x7F)

def dropComment : List Char → List Char
  | '#' :: r => r.dropWhile isPrintable
  | r => r

def escapedCode (digits : Nat) (cs : List Char) : Step Char :=
  let ds := cs.take digits
  if ds.length = digits then
    match natIn 16 ds with
    | some n => if n.isValidChar then some (Char.ofNat n, cs.drop digits) else none
    | none => none
  else none

def escaped : List Char → Step Char
  | 'b' :: r => some ('\x08', r)
  | 't' :: r => some ('\t', r)
  | 'n' :: r => some ('\n', r)
  | 'f' :: r => some ('\x0c', r)
  | 'r' :: r => some ('\r', r)
  | '"' :: r => some ('"', r)
  | '\\' :: r => some ('\\', r)
  | 'u' :: r => escapedCode 4 r
  | 'U' :: r => escapedCode 8 r
  | _ => none

def lineString (quote : Char) (escapes : Bool) : Nat → List Char → List Char → Step String
  | 0, _, _ => none
  | fuel + 1, acc, cs =>
    match cs with
    | [] => none
    | c :: r =>
      if c == quote then some (String.ofList acc.reverse, r)
      else if escapes && c == '\\' then
        match escaped r with
        | some (e, r) => lineString quote escapes fuel (e :: acc) r
        | none => none
      else if isPrintable c then lineString quote escapes fuel (c :: acc) r
      else none

def dropFolded (cs : List Char) : Option (List Char) :=
  match newline? (dropBlank cs) with
  | none => none
  | some r => some (rest r.length r)
where
  rest : Nat → List Char → List Char
    | 0, cs => cs
    | fuel + 1, cs =>
      match newline? (dropBlank cs) with
      | some r => rest fuel r
      | none => dropBlank cs

/-- A string over several lines, after its opening quotes. Up to two quotes may stand at its end. -/
def longString (quote : Char) (escapes : Bool) : Nat → List Char → List Char → Step String
  | 0, _, _ => none
  | fuel + 1, acc, cs =>
    let quotes := (cs.takeWhile (· == quote)).length
    if 3 ≤ quotes then
      if 5 < quotes then none
      else
        some (String.ofList (acc.reverse ++ List.replicate (quotes - 3) quote), cs.drop quotes)
    else
      match newline? cs with
      | some r => longString quote escapes fuel ('\n' :: acc) r
      | none =>
        match cs with
        | [] => none
        | c :: r =>
          if escapes && c == '\\' then
            match dropFolded r with
            | some r => longString quote escapes fuel acc r
            | none =>
              match escaped r with
              | some (e, r) => longString quote escapes fuel (e :: acc) r
              | none => none
          else if isPrintable c then longString quote escapes fuel (c :: acc) r
          else none

def string? (cs : List Char) : Step String :=
  let long (quote : Char) (escapes : Bool) (r : List Char) : Step String :=
    let r := (newline? r).getD r
    longString quote escapes (r.length + 1) [] r
  match cs with
  | '"' :: '"' :: '"' :: r => long '"' true r
  | '\'' :: '\'' :: '\'' :: r => long '\'' false r
  | '"' :: r => lineString '"' true (r.length + 1) [] r
  | '\'' :: r => lineString '\'' false (r.length + 1) [] r
  | _ => none

def digitGroup (p : Char → Bool) : List Char → Step (List Char)
  | c :: r => if p c then some (more (r.length + 1) [c] r) else none
  | [] => none
where
  more : Nat → List Char → List Char → List Char × List Char
    | 0, acc, cs => (acc.reverse, cs)
    | fuel + 1, acc, cs =>
      match cs with
      | '_' :: c :: r => if p c then more fuel (c :: acc) r else (acc.reverse, cs)
      | c :: r => if p c then more fuel (c :: acc) r else (acc.reverse, cs)
      | [] => (acc.reverse, cs)

def integer? (n : Int) : Option Json :=
  if -0x8000000000000000 ≤ n ∧ n < 0x8000000000000000 then some (.int n) else none

def sign : List Char → Bool × List Char
  | '-' :: r => (true, r)
  | '+' :: r => (false, r)
  | r => (false, r)

def exponentPart (cs : List Char) : Step (Option Int) :=
  match cs with
  | e :: r =>
    if e == 'e' || e == 'E' then
      let (negative, r) := sign r
      match digitGroup isDigit r with
      | some (ds, r) => some (some (if negative then -(decimal ds : Int) else decimal ds), r)
      | none => none
    else some (none, cs)
  | [] => some (none, cs)

def fractionPart (cs : List Char) : Step (Option (List Char)) :=
  match cs with
  | '.' :: r => (digitGroup isDigit r).map fun (ds, r) => (some ds, r)
  | r => some (none, r)

def decimalNumber (negative : Bool) (cs : List Char) : Option (Json × List Char) := do
  let (whole, r) ← digitGroup isDigit cs
  match whole with
  | '0' :: _ :: _ => none
  | _ =>
    let (fraction, r) ← fractionPart r
    let (exponent, r) ← exponentPart r
    if fraction.isNone && exponent.isNone then
      let n : Int := decimal whole
      let v ← integer? (if negative then -n else n)
      some (v, r)
    else
      let ds := fraction.getD []
      let x := Binary64.ofDecimal negative (decimal (whole ++ ds)) (exponent.getD 0 - ds.length)
      if x.isFinite then some (.float x, r) else none

def basedNumber (base : Nat) (cs : List Char) : Option (Json × List Char) := do
  let (ds, r) ← digitGroup (fun c => (digitIn base c).isSome) cs
  let n ← natIn base ds
  let v ← integer? n
  some (v, r)

def number? (cs : List Char) : Step Json :=
  match cs with
  | '0' :: 'x' :: r => basedNumber 16 r
  | '0' :: 'o' :: r => basedNumber 8 r
  | '0' :: 'b' :: r => basedNumber 2 r
  | cs =>
    let (negative, r) := sign cs
    match r with
    | 'i' :: 'n' :: 'f' :: r => some (.float (.infinity negative), r)
    | 'n' :: 'a' :: 'n' :: r => some (.float .notANumber, r)
    | r => decimalNumber negative r

def fixedDigits (n : Nat) (cs : List Char) : Step Nat :=
  let ds := cs.take n
  if ds.length = n && ds.all isDigit then some (decimal ds, cs.drop n) else none

def isLeap (year : Nat) : Bool := year % 4 == 0 && (year % 100 != 0 || year % 400 == 0)

def daysIn (year month : Nat) : Nat :=
  if month == 2 then (if isLeap year then 29 else 28)
  else if [4, 6, 9, 11].contains month then 30
  else 31

def padded (width n : Nat) : List Char :=
  let ds := Nat.toDigits 10 n
  List.replicate (width - ds.length) '0' ++ ds

def date? (cs : List Char) : Option ((List Char) × List Char) := do
  let (year, r) ← fixedDigits 4 cs
  let (month, r) ← match r with | '-' :: r => fixedDigits 2 r | _ => none
  let (day, r) ← match r with | '-' :: r => fixedDigits 2 r | _ => none
  if 1 ≤ month && month ≤ 12 && 1 ≤ day && day ≤ daysIn year month then
    some (padded 4 year ++ '-' :: padded 2 month ++ '-' :: padded 2 day, r)
  else none

/-- Digits of a second beyond the ninth are dropped, and zeros at their end. -/
def secondFraction (cs : List Char) : List Char × List Char :=
  match cs with
  | '.' :: r =>
    let ds := r.takeWhile isDigit
    if ds.isEmpty then ([], cs)
    else
      let kept := ((ds.take 9).reverse.dropWhile (· == '0')).reverse
      (if kept.isEmpty then ['.'] else '.' :: kept, r.dropWhile isDigit)
  | r => ([], r)

def time? (cs : List Char) : Option ((List Char) × List Char) := do
  let (hour, r) ← fixedDigits 2 cs
  let (minute, r) ← match r with | ':' :: r => fixedDigits 2 r | _ => none
  let (second, r) ← match r with | ':' :: r => fixedDigits 2 r | _ => none
  if hour < 24 && minute < 60 && second ≤ 60 then
    let (fraction, r) := secondFraction r
    let fraction := if fraction == ['.'] then [] else fraction
    some (padded 2 hour ++ ':' :: padded 2 minute ++ ':' :: padded 2 second ++ fraction, r)
  else none

def offset? (cs : List Char) : Step (List Char) :=
  let shift (c : Char) (r : List Char) : Option ((List Char) × List Char) := do
    let (hour, r) ← fixedDigits 2 r
    let (minute, r) ← match r with | ':' :: r => fixedDigits 2 r | _ => none
    if hour < 24 && minute < 60 then
      some (c :: padded 2 hour ++ ':' :: padded 2 minute, r)
    else none
  match cs with
  | 'Z' :: r => some (['Z'], r)
  | 'z' :: r => some (['Z'], r)
  | '+' :: r => shift '+' r
  | '-' :: r => shift '-' r
  | r => some ([], r)

def timeAndOffset? (cs : List Char) : Option (List Char × List Char) := do
  let (time, r) ← time? cs
  let (offset, r) ← offset? r
  some (time ++ offset, r)

def moment? (cs : List Char) : Step (List Char) :=
  match date? cs with
  | none => time? cs
  | some (date, r) =>
    match r with
    | t :: r' =>
      if t == 'T' || t == 't' || (t == ' ' && (r'.head?.map isDigit).getD false) then
        (timeAndOffset? r').map fun (time, r) => (date ++ 'T' :: time, r)
      else some (date, r)
    | [] => some (date, [])

def looksLikeMoment (cs : List Char) : Bool :=
  match cs.takeWhile isDigit, cs.dropWhile isDigit with
  | [_, _, _, _], '-' :: _ => true
  | [_, _], ':' :: _ => true
  | _, _ => false

def momentKey : String := "$__toml_private_datetime"

def scalar? (cs : List Char) : Step Json :=
  match cs with
  | 't' :: 'r' :: 'u' :: 'e' :: r => some (.bool true, r)
  | 'f' :: 'a' :: 'l' :: 's' :: 'e' :: r => some (.bool false, r)
  | '"' :: _ => (string? cs).map fun (s, r) => (.str s, r)
  | '\'' :: _ => (string? cs).map fun (s, r) => (.str s, r)
  | cs =>
    if looksLikeMoment cs then
      (moment? cs).map fun (m, r) => (.obj [(momentKey, .str (String.ofList m))], r)
    else number? cs

end AccessControl.Settings.Toml
