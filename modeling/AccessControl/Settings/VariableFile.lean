import AccessControl.Settings.Environment
import AccessControl.Text.Alphanumeric
import AccessControl.Text.Utf8

/-!
# Files of variables

A line sets one variable, which a process that has it already keeps. Values may be quoted, over
several lines if need be, and may name variables after a dollar sign. Nothing is read after the
first line that is broken or is no text.
-/

namespace AccessControl.Settings.VariableFile

open Text

/-! ## Lines -/

inductive Mode where
  | open
  | blank
  | escape
  | single
  | singleEscape
  | double
  | doubleEscape
deriving DecidableEq, Repr

def Mode.inText (c : Char) : Mode :=
  if c == '\\' then .escape
  else if c == '"' then .double
  else if c == '\'' then .single
  else .open

def Mode.step (c : Char) : Mode → Mode
  | .open => if isBlank c && c != '\n' && c != '\r' then .blank else Mode.inText c
  | .blank => Mode.inText c
  | .escape => .open
  | .single => if c == '\\' then .singleEscape else if c == '\'' then .open else .single
  | .singleEscape => .single
  | .double => if c == '\\' then .doubleEscape else if c == '"' then .open else .double
  | .doubleEscape => .double

/-- A line up to a comment in it, or in full with the mode at its end. -/
def scan : Mode → List Char → List Char × Option Mode
  | mode, [] => ([], some mode)
  | mode, c :: cs =>
    if mode = .blank ∧ c = '#' then ([], none)
    else
      let (kept, stop) := scan (mode.step c) cs
      (c :: kept, stop)

def readable (bytes : List UInt8) : List (List Char) :=
  lines [] bytes
where
  lines : List UInt8 → List UInt8 → List (List Char)
    | before, [] => if before.isEmpty then [] else (ofUtf8? before).toList
    | before, b :: bs =>
      if b = 0x0A then
        match ofUtf8? (before ++ [b]) with
        | some line => line :: lines [] bs
        | none => []
      else lines (before ++ [b]) bs

def withoutMark : List (List Char) → List (List Char)
  | (c :: cs) :: rest => if c = Char.ofNat 0xFEFF then cs :: rest else (c :: cs) :: rest
  | lines => lines

def withoutEnd (line : List Char) : List Char :=
  match line.reverse with
  | '\n' :: '\r' :: r => r.reverse
  | '\n' :: r => r.reverse
  | _ => line

/-- Lines joined where a quote is open at their ends; `none` if the last one stays open. -/
def logicalLines (mode : Mode) (before : List Char) : List (List Char) → List (Option (List Char))
  | [] => if mode = .open then [] else [none]
  | line :: rest =>
    let whole := before ++ line
    if (whole.dropWhile isBlank).head? = some '#' then some [] :: logicalLines .open [] rest
    else
      match scan mode line with
      | (kept, none) => some (before ++ kept) :: logicalLines .open [] rest
      | (_, some .open) => some (withoutEnd whole) :: logicalLines .open [] rest
      | (_, some mode) => logicalLines mode whole rest

/-! ## Values -/

/-- Where the reading of a value stands. The flag tells whether a double quote is open. -/
inductive Reading where
  | text (quoted : Bool)
  | escape (quoted : Bool)
  | single
  | name (quoted : Bool) (cs : List Char)
  | braced (quoted : Bool) (cs : List Char)
  | behind
deriving DecidableEq, Repr

def named (env : Environment) (reversed : List Char) : List Char :=
  ((env.get? (String.ofList reversed.reverse)).getD "").toList

def unescape? (c : Char) : Option Char :=
  if c = 'n' then some '\n'
  else if ['\\', '\'', '"', '$', ' '].contains c then some c
  else none

def value (env : Environment) : Reading → List Char → Option (List Char)
  | .text quoted, [] => if quoted then none else some []
  | .escape quoted, [] => if quoted then none else some []
  | .single, [] => none
  | .name quoted cs, [] => if quoted then none else some (named env cs)
  | .braced _ _, [] => none
  | .behind, [] => some []
  | .behind, c :: r =>
    if c = ' ' ∨ c = '\t' then value env .behind r
    else if c = '#' then some []
    else none
  | .escape quoted, c :: r =>
    match unescape? c with
    | some d => (value env (.text quoted) r).map (d :: ·)
    | none => none
  | .single, c :: r =>
    if c = '\'' then value env (.text false) r else (value env .single r).map (c :: ·)
  | .name quoted cs, c :: r =>
    if isAlphanumeric c then value env (.name quoted (c :: cs)) r
    else if c = '\x7b' ∧ cs = [] then value env (.braced quoted []) r
    else if c = '$' then (value env (.name quoted []) r).map (named env cs ++ ·)
    else (value env (.text quoted) r).map (named env cs ++ c :: ·)
  | .braced quoted cs, c :: r =>
    if c = '\x7d' then (value env (.text quoted) r).map (named env cs ++ ·)
    else value env (.braced quoted (c :: cs)) r
  | .text quoted, c :: r =>
    if c = '$' then value env (.name quoted []) r
    else if c = '\\' then value env (.escape quoted) r
    else if c = '"' then value env (.text (!quoted)) r
    else if quoted then (value env (.text true) r).map (c :: ·)
    else if c = '\'' then value env .single r
    else if c = ' ' ∨ c = '\t' then value env .behind r
    else (value env (.text false) r).map (c :: ·)

/-! ## Assignments -/

def isNameChar (c : Char) : Bool := isWordChar c || c == '.'

def name? (cs : List Char) : Option (List Char × List Char) :=
  match cs with
  | c :: _ =>
    if isLetter c || c == '_' then
      some (cs.takeWhile isNameChar, (cs.dropWhile isNameChar).dropWhile isBlank)
    else none
  | [] => none

def target? (cs : List Char) : Option (List Char × List Char) := do
  let (name, rest) ← name? cs
  match rest with
  | '=' :: r => some (name, r.dropWhile isBlank)
  | _ =>
    if name = "export".toList then
      let (name, rest) ← name? rest
      match rest with
      | '=' :: r => some (name, r.dropWhile isBlank)
      | _ => none
    else none

def assignment? (env : Environment) (line : List Char) : Option (Option (String × String)) :=
  match trimChars isBlank line with
  | [] => some none
  | '#' :: _ => some none
  | cs => do
    let (name, rest) ← target? cs
    let text ←
      match rest with
      | '#' :: _ => some []
      | rest => value env (.text false) rest
    some (some (String.ofList name, String.ofList text))

def define (env : Environment) (name value : String) : Environment :=
  if (env.get? name).isSome then env else env ++ [(name, value)]

def load (env : Environment) : List (Option (List Char)) → Environment
  | [] => env
  | none :: _ => env
  | some line :: rest =>
    match assignment? env line with
    | none => env
    | some none => load env rest
    | some (some (name, value)) => load (define env name value) rest

def extend (env : Environment) (bytes : List UInt8) : Environment :=
  load env (logicalLines .open [] (withoutMark (readable bytes)))

end AccessControl.Settings.VariableFile
