import AccessControl.Settings.Yaml.Cursor

/-!
# Scalars of a YAML text

Text in the five styles it can be written in: plain, in single or double quotes, and in blocks that
keep or fold their lines. Each reader stands behind the mark that opens its style.
-/

namespace AccessControl.Settings.Yaml

inductive Style where
  | plain
  | single
  | double
  | literal
  | folded
deriving DecidableEq, Repr

/-- Blanks between two words: on one line, or across breaks, of which the first one may not count.
Backwards. -/
structure Gap where
  blanks : List Char
  broken : Bool
  leading : Option Char
  trailing : List Char

namespace Gap

def empty : Gap := ⟨[], false, none, []⟩

def behindBreak : Gap := ⟨[], true, none, []⟩

def fold (g : Gap) : List Char :=
  if !g.broken then g.blanks
  else
    match g.leading with
    | some '\n' => if g.trailing.isEmpty then [' '] else g.trailing
    | some c => g.trailing ++ [c]
    | none => g.trailing

def push (g : Gap) (c : Char) : Gap :=
  if g.broken then { g with trailing := normalBreak c :: g.trailing }
  else { g with broken := true, leading := some (normalBreak c) }

/-- The gap that starts at a place. In front of a least column, tabs after a break are refused. -/
def read (least : Option Nat) : Nat → Gap → Cursor → Option (Gap × Cursor)
  | 0, _, _ => none
  | fuel + 1, g, c =>
    match c.head with
    | none => some (g, c)
    | some ch =>
      if isBlank ch then
        if !g.broken then read least fuel { g with blanks := ch :: g.blanks } (c.skip 1)
        else if ch == '\t' && least.any (c.column < ·) then none
        else read least fuel g (c.skip 1)
      else if isBreak ch then read least fuel (g.push ch) c.skipBreak
      else some (g, c)

end Gap

namespace Scalar

def endsPlain (flow : Bool) (c : Cursor) : Bool :=
  match c.head with
  | none => true
  | some ch =>
    isBlank ch || isBreak ch || (ch == ':' && endsWord (c.peek 1)) ||
      (flow && [',', '[', ']', '\x7b', '\x7d'].contains ch)

def isMisplacedColon (flow : Bool) (c : Cursor) : Bool :=
  flow && c.head == some ':' &&
    match c.peek 1 with
    | some ch => [',', '?', '[', ']', '\x7b', '\x7d'].contains ch
    | none => false

def plainWord (flow : Bool) : Nat → List Char → Cursor → Option (List Char × Cursor)
  | 0, _, _ => none
  | fuel + 1, acc, c =>
    match c.rest with
    | [] => some (acc, c)
    | ch :: _ =>
      if isBlank ch || isBreak ch then some (acc, c)
      else if isMisplacedColon flow c then none
      else if endsPlain flow c then some (acc, c)
      else plainWord flow fuel (ch :: acc) (c.skip 1)

def plainFrom (flow : Bool) (least : Nat) :
    Nat → List Char → Gap → Cursor → Option (List Char × Bool × Cursor)
  | 0, _, _, _ => none
  | fuel + 1, acc, g, c =>
    if c.atDocumentMark || c.head == some '#' then some (acc, g.broken, c)
    else
      match plainWord flow (c.rest.length + 1) [] c with
      | none => none
      | some ([], c) => some (acc, g.broken, c)
      | some (word, c) =>
        let acc := word ++ g.fold ++ acc
        if !endsWord c.head || c.head.isNone then some (acc, false, c)
        else
          match Gap.read (some least) (c.rest.length + 1) Gap.empty c with
          | none => none
          | some (g, c) =>
            if !flow && c.column < least then some (acc, g.broken, c)
            else plainFrom flow least fuel acc g c

def plain (flow : Bool) (least : Nat) (c : Cursor) : Option (String × Bool × Cursor) :=
  (plainFrom flow least (c.rest.length + 1) [] Gap.empty c).map fun (acc, broken, c) =>
    (String.ofList acc.reverse, broken, c)

def escapedCode (digits : Nat) (c : Cursor) : Option (Char × Cursor) :=
  let ds := c.rest.take digits
  if ds.length = digits then
    match Text.natIn 16 ds with
    | some n => if n.isValidChar then some (Char.ofNat n, c.skip digits) else none
    | none => none
  else none

def simpleEscape (c : Char) : Option Char :=
  match c with
  | '0' => some '\x00'
  | 'a' => some '\x07'
  | 'b' => some '\x08'
  | 't' => some '\t'
  | '\t' => some '\t'
  | 'n' => some '\n'
  | 'v' => some '\x0b'
  | 'f' => some '\x0c'
  | 'r' => some '\r'
  | 'e' => some '\x1b'
  | ' ' => some ' '
  | '"' => some '"'
  | '/' => some '/'
  | '\\' => some '\\'
  | 'N' => some '\x85'
  | '_' => some '\xa0'
  | 'L' => some '\u2028'
  | 'P' => some '\u2029'
  | _ => none

def escaped (c : Cursor) : Option (Char × Cursor) :=
  match c.head with
  | some 'x' => escapedCode 2 (c.skip 1)
  | some 'u' => escapedCode 4 (c.skip 1)
  | some 'U' => escapedCode 8 (c.skip 1)
  | some ch => (simpleEscape ch).map fun e => (e, c.skip 1)
  | none => none

/-- The characters up to the next blank, break or closing quote. An escaped line break ends them
too, and what follows it counts as the start of a line. -/
def quotedWord (single : Bool) : Nat → List Char → Cursor → Option (List Char × Bool × Cursor)
  | 0, _, _ => none
  | fuel + 1, acc, c =>
    match c.rest with
    | [] => some (acc, false, c)
    | ch :: r =>
      if isBlank ch || isBreak ch then some (acc, false, c)
      else if single then
        if ch == '\'' then
          if r.head? == some '\'' then quotedWord single fuel ('\'' :: acc) (c.skip 2)
          else some (acc, false, c)
        else quotedWord single fuel (ch :: acc) (c.skip 1)
      else if ch == '"' then some (acc, false, c)
      else if ch == '\\' then
        if (r.head?.map isBreak).getD false then some (acc, true, (c.skip 1).skipBreak)
        else
          match escaped (c.skip 1) with
          | some (e, c) => quotedWord single fuel (e :: acc) c
          | none => none
      else quotedWord single fuel (ch :: acc) (c.skip 1)

def quotedFrom (single : Bool) : Nat → List Char → Cursor → Option (List Char × Cursor)
  | 0, _, _ => none
  | fuel + 1, acc, c =>
    if c.atDocumentMark || c.rest.isEmpty then none
    else
      match quotedWord single (c.rest.length + 1) acc c with
      | none => none
      | some (acc, continued, c) =>
        if c.head == some (if single then '\'' else '"') then some (acc, c.skip 1)
        else
          let start := if continued then Gap.behindBreak else Gap.empty
          match Gap.read none (c.rest.length + 1) start c with
          | none => none
          | some (g, c) => quotedFrom single fuel (g.fold ++ acc) c

def quoted (single : Bool) (c : Cursor) : Option (String × Cursor) :=
  (quotedFrom single (c.rest.length + 1) [] c).map fun (acc, c) => (String.ofList acc.reverse, c)

inductive Chomp where
  | strip
  | clip
  | keep
deriving DecidableEq, Repr

def chompMark (c : Cursor) : Option Chomp :=
  match c.head with
  | some '+' => some .keep
  | some '-' => some .strip
  | _ => none

def indentMark (c : Cursor) : Option (Option Nat) :=
  match c.head with
  | some ch =>
    if Text.isDigit ch then some (if ch == '0' then none else some (ch.toNat - 48)) else none
  | none => none

def blockHead (c : Cursor) : Option (Chomp × Option Nat × Cursor) := do
  let (chomp, increment, c) ←
    match chompMark c with
    | some chomp =>
      let c := c.skip 1
      match indentMark c with
      | some none => none
      | some n => some (chomp, n, c.skip 1)
      | none => some (chomp, none, c)
    | none =>
      match indentMark c with
      | some none => none
      | some n =>
        let c := c.skip 1
        match chompMark c with
        | some chomp => some (chomp, n, c.skip 1)
        | none => some (.clip, n, c)
      | none => some (.clip, none, c)
  let c := c.skipWhile isBlank
  let c := if c.head == some '#' then c.skipWhile (!isBreak ·) else c
  if endsLine c.head then
    some (chomp, increment, if c.rest.isEmpty then c else c.skipBreak)
  else none

def blockBreaks (indent : Option Nat) :
    Nat → List Char → Nat → Cursor → Option (List Char × Nat × Cursor)
  | 0, _, _, _ => none
  | fuel + 1, acc, widest, c =>
    let spaces := (c.rest.takeWhile (· == ' ')).length
    let c := c.skip (match indent with | some n => min spaces (n - c.column) | none => spaces)
    let widest := max widest c.column
    if c.head == some '\t' && (match indent with | some n => c.column < n | none => true) then none
    else
      match c.head with
      | some ch =>
        if isBreak ch then blockBreaks indent fuel (normalBreak ch :: acc) widest c.skipBreak
        else some (acc, widest, c)
      | none => some (acc, widest, c)

/-- Lines of a block. Between two lines that start with a word, a folded block has a space where a
literal one has a break. -/
def blockLines (folds : Bool) (indent : Nat) :
    Nat → List Char → Option Char → Bool → List Char → Cursor →
      Option (List Char × Option Char × List Char × Cursor)
  | 0, _, _, _, _, _ => none
  | fuel + 1, acc, leading, wasBlank, trailing, c =>
    match c.rest with
    | [] => some (acc, leading, trailing, c)
    | ch :: _ =>
      if c.column != indent then some (acc, leading, trailing, c)
      else
        let startsBlank := isBlank ch
        let joint :=
          if folds && leading == some '\n' && !wasBlank && !startsBlank then
            if trailing.isEmpty then [' '] else []
          else leading.toList
        let (line, c) := c.takeWhile (!isBreak ·)
        let acc := line.reverse ++ trailing ++ joint ++ acc
        let (leading, c) :=
          match c.head with
          | some ch => (some (normalBreak ch), c.skipBreak)
          | none => (none, c)
        match blockBreaks (some indent) (c.rest.length + 1) [] 0 c with
        | none => none
        | some (trailing, _, c) => blockLines folds indent fuel acc leading startsBlank trailing c

def block (folds : Bool) (outer : Int) (c : Cursor) : Option (String × Cursor) := do
  let (chomp, increment, c) ← blockHead c
  let known : Option Nat := increment.map fun n => if 0 ≤ outer then outer.toNat + n else n
  let (trailing, widest, c) ← blockBreaks known (c.rest.length + 1) [] 0 c
  let indent := known.getD (max widest (max (outer + 1).toNat 1))
  let (acc, leading, trailing, c) ←
    blockLines folds indent (c.rest.length + 1) [] none false trailing c
  let acc :=
    match chomp with
    | .strip => acc
    | .clip => leading.toList ++ acc
    | .keep => trailing ++ leading.toList ++ acc
  some (String.ofList acc.reverse, c)

end Scalar

end AccessControl.Settings.Yaml
