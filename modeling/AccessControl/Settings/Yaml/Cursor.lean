import AccessControl.Text.Ascii

/-!
# A place in a YAML text

The characters that are left, and the line and column where they start.
-/

namespace AccessControl.Settings.Yaml

def isBreak (c : Char) : Bool :=
  c == '\n' || c == '\r' || c == '\x85' || c == '\u2028' || c == '\u2029'

def isBlank (c : Char) : Bool := c == ' ' || c == '\t'

def isNameChar (c : Char) : Bool := Text.isWordChar c || c == '-'

def normalBreak (c : Char) : Char := if c == '\u2028' || c == '\u2029' then c else '\n'

def endsWord : Option Char → Bool
  | none => true
  | some c => isBlank c || isBreak c

def endsLine : Option Char → Bool
  | none => true
  | some c => isBreak c

structure Cursor where
  rest : List Char
  line : Nat
  column : Nat
  index : Nat

namespace Cursor

def ofText (cs : List Char) : Cursor := ⟨cs, 0, 0, 0⟩

def peek (c : Cursor) (n : Nat) : Option Char := c.rest[n]?

def head (c : Cursor) : Option Char := c.rest.head?

def skip (c : Cursor) (n : Nat) : Cursor :=
  { c with rest := c.rest.drop n, column := c.column + n, index := c.index + n }

def skipBreak (c : Cursor) : Cursor :=
  let n := match c.rest with | '\r' :: '\n' :: _ => 2 | _ => 1
  ⟨c.rest.drop n, c.line + 1, 0, c.index + n⟩

def takeWhile (p : Char → Bool) (c : Cursor) : List Char × Cursor :=
  let cs := c.rest.takeWhile p
  (cs, c.skip cs.length)

def skipWhile (p : Char → Bool) (c : Cursor) : Cursor := (c.takeWhile p).2

def startsWith (c : Cursor) (cs : List Char) : Bool := c.rest.take cs.length == cs

def atDocumentMark (c : Cursor) : Bool :=
  c.column == 0 && (c.startsWith ['-', '-', '-'] || c.startsWith ['.', '.', '.']) &&
    endsWord (c.peek 3)

end Cursor

end AccessControl.Settings.Yaml
