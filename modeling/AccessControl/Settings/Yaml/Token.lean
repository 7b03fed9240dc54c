import AccessControl.Settings.Yaml.Scalar
import AccessControl.Text.Utf8

/-!
# Tokens of a YAML text

Outside of brackets the column of a line decides where collections start and end, and what stands in
front of a colon turns out to be a key only there; so a token is put in where the key began.
-/

namespace AccessControl.Settings.Yaml

inductive Token where
  | version (major minor : Nat)
  | shorthand (handle stem : String)
  | documentStart
  | documentEnd
  | sequenceStart
  | mappingStart
  | blockEnd
  | bracketOpen
  | bracketClose
  | braceOpen
  | braceClose
  | entry
  | comma
  | key
  | value
  | alias (name : String)
  | anchor (name : String)
  | tag (handle suffix : String)
  | scalar (style : Style) (text : String)
deriving DecidableEq, Repr

namespace Token

/-- Where a key may have begun: on this line, not far back, and with no need to say so. -/
structure KeyStart where
  required : Bool
  token : Nat
  line : Nat
  column : Nat
  index : Nat

structure Scan where
  cursor : Cursor
  depth : Nat
  indent : Int
  outer : List Int
  keyAllowed : Bool
  keys : List (Option KeyStart)
  tokens : Array Token

namespace Scan

def start (cs : List Char) : Scan := ⟨Cursor.ofText cs, 0, -1, [], true, [none], #[]⟩

def inFlow (s : Scan) : Bool := s.depth != 0

def push (s : Scan) (t : Token) : Scan := { s with tokens := s.tokens.push t }

def moveTo (s : Scan) (c : Cursor) : Scan := { s with cursor := c }

def advance (s : Scan) (n : Nat) : Scan := s.moveTo (s.cursor.skip n)

def setKey (s : Scan) (k : Option KeyStart) : Scan := { s with keys := k :: s.keys.tail }

/-- No key began here, which is refused if there had to be one. -/
def dropKey (s : Scan) : Option Scan :=
  match s.keys.head? with
  | some (some k) => if k.required then none else some (s.setKey none)
  | _ => some s

def markKey (s : Scan) : Option Scan :=
  if s.keyAllowed then
    let required := !s.inFlow && s.indent == (s.cursor.column : Int)
    s.dropKey.map fun s =>
      s.setKey (some ⟨required, s.tokens.size, s.cursor.line, s.cursor.column, s.cursor.index⟩)
  else some s

def staleKey (c : Cursor) (k : KeyStart) : Bool := k.line < c.line || k.index + 1024 < c.index

def dropStale (c : Cursor) : List (Option KeyStart) → Option (List (Option KeyStart))
  | [] => some []
  | k :: ks =>
    match k with
    | some start =>
      if staleKey c start then
        if start.required then none else (dropStale c ks).map (none :: ·)
      else (dropStale c ks).map (k :: ·)
    | none => (dropStale c ks).map (none :: ·)

def unroll (column : Int) : List Int → Scan → Scan
  | [], s => { s with outer := [] }
  | outer :: rest, s =>
    if column < s.indent then unroll column rest { s.push .blockEnd with indent := outer }
    else { s with outer := outer :: rest }

def unrollTo (s : Scan) (column : Int) : Scan :=
  if s.inFlow then s else unroll column s.outer s

def roll (s : Scan) (column : Nat) (place : Nat) (t : Token) : Scan :=
  if !s.inFlow && s.indent < (column : Int) then
    { s with
      outer := s.indent :: s.outer
      indent := column
      tokens := s.tokens.insertIdxIfInBounds place t }
  else s

def skipToToken : Nat → Scan → Scan
  | 0, s => s
  | fuel + 1, s =>
    let marked := s.cursor.column == 0 && s.cursor.head == some '\ufeff'
    let c := if marked then s.cursor.skip 1 else s.cursor
    let c := c.skipWhile fun ch => ch == ' ' || (ch == '\t' && (s.inFlow || !s.keyAllowed))
    let c := if c.head == some '#' then c.skipWhile (!isBreak ·) else c
    match c.head with
    | some ch =>
      if isBreak ch then
        skipToToken fuel { s with cursor := c.skipBreak, keyAllowed := s.keyAllowed || !s.inFlow }
      else s.moveTo c
    | none => s.moveTo c

def mark (s : Scan) (n : Nat) (t : Token) (keyAllowed : Bool) : Option Scan :=
  s.dropKey.map fun s => { (s.advance n).push t with keyAllowed }

def openBracket (s : Scan) (t : Token) : Option Scan :=
  s.markKey.map fun s =>
    { (s.advance 1).push t with keyAllowed := true, depth := s.depth + 1, keys := none :: s.keys }

def closeBracket (s : Scan) (t : Token) : Option Scan :=
  s.dropKey.map fun s =>
    let s := if s.inFlow then { s with depth := s.depth - 1, keys := s.keys.tail } else s
    { (s.advance 1).push t with keyAllowed := false }

def entry (s : Scan) : Option Scan :=
  if s.inFlow then s.mark 1 .entry true
  else if s.keyAllowed then (s.roll s.cursor.column s.tokens.size .sequenceStart).mark 1 .entry true
  else none

def key (s : Scan) : Option Scan :=
  if s.inFlow then s.mark 1 .key false
  else if s.keyAllowed then (s.roll s.cursor.column s.tokens.size .mappingStart).mark 1 .key true
  else none

def value (s : Scan) : Option Scan :=
  match s.keys.head? with
  | some (some k) =>
    let s := { s with tokens := s.tokens.insertIdxIfInBounds k.token .key }
    let s := s.roll k.column k.token .mappingStart
    some { ((s.setKey none).advance 1).push .value with keyAllowed := false }
  | _ =>
    if s.inFlow then some { (s.advance 1).push .value with keyAllowed := false }
    else if s.keyAllowed then
      some { ((s.roll s.cursor.column s.tokens.size .mappingStart).advance 1).push .value with
        keyAllowed := true }
    else none

def endsName : Option Char → Bool
  | none => true
  | some c => isBlank c || isBreak c || ['?', ':', ',', ']', '\x7d', '%', '@', '\x60'].contains c

def name (s : Scan) (make : String → Token) : Option Scan := do
  let s ← s.markKey
  let (cs, c) := (s.cursor.skip 1).takeWhile isNameChar
  if cs.isEmpty || !endsName c.head then none
  else some { (s.moveTo c).push (make (String.ofList cs)) with keyAllowed := false }

def isUriChar (wide : Bool) (c : Char) : Bool :=
  isNameChar c ||
    [';', '/', '?', ':', '@', '&', '=', '+', '$', '.', '!', '~', '*', '\'', '(', ')',
      '%'].contains c ||
    (wide && [',', '[', ']'].contains c)

def uriBytes : List Char → Option (List UInt8)
  | [] => some []
  | '%' :: a :: b :: r => do
    let n ← Text.natIn 16 [a, b]
    let bytes ← uriBytes r
    some (UInt8.ofNat n :: bytes)
  | '%' :: _ => none
  | c :: r => (uriBytes r).map (String.utf8EncodeChar c ++ ·)

def uri (wide : Bool) (c : Cursor) : Option (List Char × Cursor) := do
  let (cs, c) := c.takeWhile (isUriChar wide)
  let bytes ← uriBytes cs
  let text ← Text.ofUtf8? bytes
  some (text, c)

def tagHandle (c : Cursor) : Option (List Char × Cursor) :=
  if c.head == some '!' then
    let (cs, c) := (c.skip 1).takeWhile isNameChar
    if c.head == some '!' then some ('!' :: cs ++ ['!'], c.skip 1) else some ('!' :: cs, c)
  else none

def tagBody (c : Cursor) : Option (String × String × Cursor) :=
  if c.peek 1 == some '<' then do
    let (suffix, c) ← uri true (c.skip 2)
    if suffix.isEmpty || c.head != some '>' then none
    else some ("", String.ofList suffix, c.skip 1)
  else do
    let (handle, c) ← tagHandle c
    let (rest, c) ← uri false c
    if 1 < handle.length && handle.getLast? == some '!' then
      if rest.isEmpty then none else some (String.ofList handle, String.ofList rest, c)
    else
      let suffix := handle.drop 1 ++ rest
      if suffix.isEmpty then some ("", "!", c) else some ("!", String.ofList suffix, c)

def tag (s : Scan) : Option Scan := do
  let s ← s.markKey
  let (handle, suffix, c) ← tagBody s.cursor
  if endsWord c.head || (s.inFlow && c.head == some ',') then
    some { (s.moveTo c).push (.tag handle suffix) with keyAllowed := false }
  else none

def blockScalar (s : Scan) (folds : Bool) : Option Scan := do
  let s ← s.dropKey
  let (text, c) ← Scalar.block folds s.indent (s.cursor.skip 1)
  let style := if folds then Style.folded else .literal
  some { (s.moveTo c).push (.scalar style text) with keyAllowed := true }

def quotedScalar (s : Scan) (single : Bool) : Option Scan := do
  let s ← s.markKey
  let (text, c) ← Scalar.quoted single (s.cursor.skip 1)
  let style := if single then Style.single else .double
  some { (s.moveTo c).push (.scalar style text) with keyAllowed := false }

def plainScalar (s : Scan) : Option Scan := do
  let s ← s.markKey
  let (text, broken, c) ← Scalar.plain s.inFlow (s.indent + 1).toNat s.cursor
  some { (s.moveTo c).push (.scalar .plain text) with keyAllowed := broken }

def versionNumber (c : Cursor) : Option (Nat × Cursor) :=
  let (ds, c) := c.takeWhile Text.isDigit
  if ds.isEmpty || 9 < ds.length then none else some (Text.decimal ds, c)

def directiveBody (name : String) (c : Cursor) : Option (Token × Cursor) :=
  match name with
  | "YAML" => do
    let (major, c) ← versionNumber (c.skipWhile isBlank)
    if c.head != some '.' then none
    else
      let (minor, c) ← versionNumber (c.skip 1)
      some (.version major minor, c)
  | "TAG" => do
    let (handle, c) ← tagHandle (c.skipWhile isBlank)
    if handle.length != 1 && handle.getLast? != some '!' then none
    else if !(c.head.map isBlank).getD false then none
    else
      let (stem, c) ← uri true (c.skipWhile isBlank)
      if stem.isEmpty || !endsWord c.head then none
      else some (.shorthand (String.ofList handle) (String.ofList stem), c)
  | _ => none

def directive (s : Scan) : Option Scan := do
  let s ← (s.unrollTo (-1)).dropKey
  let (name, c) := (s.cursor.skip 1).takeWhile isNameChar
  if !endsWord c.head then none
  else
    let (t, c) ← directiveBody (String.ofList name) c
    let c := c.skipWhile isBlank
    let c := if c.head == some '#' then c.skipWhile (!isBreak ·) else c
    if !endsLine c.head then none
    else
      let c := if c.rest.isEmpty then c else c.skipBreak
      some { (s.moveTo c).push t with keyAllowed := false }

def documentMark (s : Scan) (t : Token) : Option Scan := (s.unrollTo (-1)).mark 3 t false

def indicators : List Char :=
  ['-', '?', ':', ',', '[', ']', '\x7b', '\x7d', '#', '&', '*', '!', '|', '>', '\'', '"', '%',
    '@', '\x60']

def startsPlain (s : Scan) (ch : Char) : Bool :=
  let next := s.cursor.peek 1
  !(isBlank ch || isBreak ch || indicators.contains ch) ||
    (ch == '-' && !(next.map isBlank).getD false) ||
    (!s.inFlow && (ch == '?' || ch == ':') && !endsWord next)

def token (s : Scan) (ch : Char) : Option Scan :=
  let next := s.cursor.peek 1
  let c := s.cursor
  if c.column == 0 && ch == '%' then s.directive
  else if c.atDocumentMark && ch == '-' then s.documentMark .documentStart
  else if c.atDocumentMark && ch == '.' then s.documentMark .documentEnd
  else if ch == '[' then s.openBracket .bracketOpen
  else if ch == '\x7b' then s.openBracket .braceOpen
  else if ch == ']' then s.closeBracket .bracketClose
  else if ch == '\x7d' then s.closeBracket .braceClose
  else if ch == ',' then s.mark 1 .comma true
  else if ch == '-' && endsWord next then s.entry
  else if ch == '?' && (s.inFlow || endsWord next) then s.key
  else if ch == ':' && (s.inFlow || endsWord next) then s.value
  else if ch == '*' then s.name .alias
  else if ch == '&' then s.name .anchor
  else if ch == '!' then s.tag
  else if ch == '|' && !s.inFlow then s.blockScalar false
  else if ch == '>' && !s.inFlow then s.blockScalar true
  else if ch == '\'' then s.quotedScalar true
  else if ch == '"' then s.quotedScalar false
  else if s.startsPlain ch then s.plainScalar
  else none

def requiresKey : Option KeyStart → Bool
  | some k => k.required
  | none => false

/-- All tokens from here on. A key that there has to be is missed at the end of the text. -/
def run : Nat → Scan → Option (Array Token)
  | 0, _ => none
  | fuel + 1, s => do
    let s := skipToToken (s.cursor.rest.length + 1) s
    let keys ← dropStale s.cursor s.keys
    let s := { s with keys }
    let s := s.unrollTo s.cursor.column
    match s.cursor.head with
    | none => if s.keys.any requiresKey then none else some (s.unrollTo (-1)).tokens
    | some ch =>
      let s ← s.token ch
      run fuel s

end Scan

def isAllowed (c : Char) : Bool :=
  let n := c.toNat
  n == 9 || n == 10 || n == 13 || (0x20 ≤ n && n ≤ 0x7E) || n == 0x85 || (0xA0 ≤ n && n ≤ 0xFFFD) ||
    0x10000 ≤ n

def ofText? (cs : List Char) : Option (List Token) :=
  let cs := match cs with | '\ufeff' :: r => r | cs => cs
  if cs.all isAllowed then
    ((Scan.start cs).run (cs.length + 2)).map Array.toList
  else none

end Token

end AccessControl.Settings.Yaml
