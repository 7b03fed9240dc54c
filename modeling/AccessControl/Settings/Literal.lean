import AccessControl.Decimal.Reader
import AccessControl.Settings.Tree
import AccessControl.Text.Blank

/-!
# Values of environment variables

A variable may hold a truth value, a number, a quoted string or character, a list in brackets or a
table in braces. A text that is none of these from its first to its last character is a string.
-/

namespace AccessControl.Settings.Literal

open Text Decimal

abbrev Step (α : Type) : Type := Option (α × List Char)

def dropBlank (cs : List Char) : List Char := cs.dropWhile isAsciiBlank

def isMark (c : Char) : Bool := [',', '\x7b', '\x7d', '[', ']'].contains c

def escapedCode (digits : Nat) (cs : List Char) : Step Char :=
  let ds := cs.take digits
  if ds.length = digits then
    match natIn 16 ds with
    | some n => if n.isValidChar then some (Char.ofNat n, cs.drop digits) else none
    | none => none
  else none

def escaped : List Char → Step Char
  | '"' :: r => some ('"', r)
  | '\\' :: r => some ('\\', r)
  | 'b' :: r => some ('\x08', r)
  | 'f' :: r => some ('\x0c', r)
  | 'n' :: r => some ('\n', r)
  | 'r' :: r => some ('\r', r)
  | 't' :: r => some ('\t', r)
  | 'u' :: r => escapedCode 4 r
  | 'U' :: r => escapedCode 8 r
  | _ => none

def quoted : Nat → List Char → List Char → Step String
  | 0, _, _ => none
  | fuel + 1, acc, cs =>
    match cs with
    | [] => none
    | c :: r =>
      if c == '"' then some (String.ofList acc.reverse, r)
      else if c == '\\' then
        match escaped r with
        | some (e, r) => quoted fuel (e :: acc) r
        | none => none
      else if c == '\t' || (0x20 ≤ c.toNat && c.toNat != 0x7F) then quoted fuel (c :: acc) r
      else none

def integer? (cs : List Char) : Option Json :=
  match cs with
  | '-' :: r =>
    match natIn 10 r with
    | some n => if n ≤ 0x8000000000000000 then some (.int (-(n : Int))) else none
    | none => none
  | cs =>
    match natIn 10 (match cs with | '+' :: r => r | r => r) with
    | some n => if n < UInt64.size then some (.int n) else none
    | none => none

/-- What a bare text means: a number if it looks like one, else itself. -/
def bare (cs : List Char) : Json :=
  let float := if cs.contains '.' then (number? cs).map Json.float else none
  (float.or (integer? cs)).getD (.str (String.ofList cs))

def isNameChar (c : Char) : Bool := isWordChar c || c == '-'

def name (cs : List Char) : Step String :=
  match dropBlank cs with
  | '"' :: r => (quoted (r.length + 1) [] r).map fun (s, r) => (s, dropBlank r)
  | cs =>
    match cs.takeWhile isNameChar with
    | [] => none
    | s => some (String.ofList s, dropBlank (cs.dropWhile isNameChar))

mutual
def value : Nat → List Char → Step Json
  | 0, _ => none
  | fuel + 1, cs =>
    let blank (r : Step Json) : Step Json := r.map fun (v, r) => (v, dropBlank r)
    match dropBlank cs with
    | 't' :: 'r' :: 'u' :: 'e' :: r => blank (some (.bool true, r))
    | 'f' :: 'a' :: 'l' :: 's' :: 'e' :: r => blank (some (.bool false, r))
    | '\x7b' :: r => blank ((members fuel [] r).map fun (ms, r) => (.obj (Json.ofPairs ms), r))
    | '[' :: r => blank ((items fuel [] r).map fun (xs, r) => (.arr xs, r))
    | '"' :: r => blank ((quoted (r.length + 1) [] r).map fun (s, r) => (.str s, r))
    | '\'' :: c :: '\'' :: r => blank (some (.str (String.ofList [c]), r))
    | '\'' :: _ => none
    | cs => some (bare (trimChars isBlank (cs.takeWhile (!isMark ·))), cs.dropWhile (!isMark ·))

def items : Nat → List Json → List Char → Step (List Json)
  | 0, _, _ => none
  | fuel + 1, done, cs =>
    match cs with
    | ']' :: r => some (done.reverse, r)
    | cs =>
      match value fuel cs with
      | some (v, ',' :: r) => items fuel (v :: done) r
      | some (v, ']' :: r) => some ((v :: done).reverse, r)
      | _ => none

def members : Nat → Members → List Char → Step Members
  | 0, _, _ => none
  | fuel + 1, done, cs =>
    match cs with
    | '\x7d' :: r => some (done.reverse, r)
    | cs =>
      match name cs with
      | some (k, '=' :: r) =>
        match value fuel r with
        | some (v, ',' :: r) => members fuel ((k, v) :: done) r
        | some (v, '\x7d' :: r) => some (((k, v) :: done).reverse, r)
        | _ => none
      | _ => none
end

def parse (s : String) : Json :=
  let cs := s.toList
  match value (2 * cs.length + 2) cs with
  | some (v, []) => v
  | _ => .str s

end AccessControl.Settings.Literal
