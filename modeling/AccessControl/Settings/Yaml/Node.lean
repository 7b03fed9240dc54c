import AccessControl.Settings.Yaml.Token

/-!
# Nodes of a YAML document

Scalars, sequences and mappings as they are written, with their anchors and tags, and aliases in the
place of nodes.
-/

namespace AccessControl.Settings.Yaml

structure Props where
  anchor : Option String
  tag : Option String
deriving DecidableEq, Repr

inductive Node where
  | alias (name : String)
  | scalar (props : Props) (plain : Bool) (text : String)
  | sequence (props : Props) (items : List Node)
  | mapping (props : Props) (pairs : List (Node × Node))
deriving Inhabited, Repr

namespace Node

def empty : Node := .scalar ⟨none, none⟩ true ""

abbrev Step (α : Type) : Type := Option (α × List Token)

abbrev Handles : Type := List (String × String)

def standardHandles : Handles := [("!", "!"), ("!!", "tag:yaml.org,2002:")]

def resolveTag (hs : Handles) (handle suffix : String) : Option String :=
  if handle.isEmpty then some suffix
  else
    match hs.find? fun h => h.1 == handle with
    | some h => some (h.2 ++ suffix)
    | none => none

def props (hs : Handles) : List Token → Step Props
  | .anchor a :: .tag h s :: r => (resolveTag hs h s).map fun t => (⟨some a, some t⟩, r)
  | .tag h s :: .anchor a :: r => (resolveTag hs h s).map fun t => (⟨some a, some t⟩, r)
  | .anchor a :: r => some (⟨some a, none⟩, r)
  | .tag h s :: r => (resolveTag hs h s).map fun t => (⟨none, some t⟩, r)
  | r => some (⟨none, none⟩, r)

def endsEntry : List Token → Bool
  | .entry :: _ => true
  | .blockEnd :: _ => true
  | _ => false

def endsLooseEntry : List Token → Bool
  | .key :: _ => true
  | .value :: _ => true
  | r => endsEntry r

def endsPart : List Token → Bool
  | .key :: _ => true
  | .value :: _ => true
  | .blockEnd :: _ => true
  | _ => false

def endsFlowKey (close : Token) : List Token → Bool
  | .value :: _ => true
  | .comma :: _ => true
  | t :: _ => t == close
  | [] => false

def endsFlowValue (close : Token) : List Token → Bool
  | .comma :: _ => true
  | t :: _ => t == close
  | [] => false

mutual
/-- A node. Blocks may stand only outside of brackets; a sequence may stand in its column without
being indented where a key or value is wanted. -/
def read (hs : Handles) (block loose : Bool) : Nat → List Token → Step Node
  | 0, _ => none
  | fuel + 1, ts =>
    match ts with
    | .alias name :: r => some (.alias name, r)
    | ts =>
      match props hs ts with
      | none => none
      | some (p, r) =>
        let bare := p.anchor.isNone && p.tag.isNone
        match r with
        | .entry :: _ =>
          if loose then (looseItems hs fuel [] r).map fun (xs, r) => (.sequence p xs, r)
          else if bare then none else some (.scalar p true "", r)
        | .scalar style text :: r => some (.scalar p (style == .plain) text, r)
        | .bracketOpen :: r => (flowItems hs fuel true [] r).map fun (xs, r) => (.sequence p xs, r)
        | .braceOpen :: r => (flowPairs hs fuel true [] r).map fun (xs, r) => (.mapping p xs, r)
        | .sequenceStart :: r' =>
          if block then (items hs fuel [] r').map fun (xs, r) => (.sequence p xs, r)
          else if bare then none else some (.scalar p true "", r)
        | .mappingStart :: r' =>
          if block then (pairs hs fuel [] r').map fun (xs, r) => (.mapping p xs, r)
          else if bare then none else some (.scalar p true "", r)
        | r => if bare then none else some (.scalar p true "", r)

def items (hs : Handles) : Nat → List Node → List Token → Step (List Node)
  | 0, _, _ => none
  | fuel + 1, done, ts =>
    match ts with
    | .blockEnd :: r => some (done.reverse, r)
    | .entry :: r =>
      if endsEntry r then items hs fuel (empty :: done) r
      else
        match read hs true false fuel r with
        | some (x, r) => items hs fuel (x :: done) r
        | none => none
    | _ => none

def looseItems (hs : Handles) : Nat → List Node → List Token → Step (List Node)
  | 0, _, _ => none
  | fuel + 1, done, ts =>
    match ts with
    | .entry :: r =>
      if endsLooseEntry r then looseItems hs fuel (empty :: done) r
      else
        match read hs true false fuel r with
        | some (x, r) => looseItems hs fuel (x :: done) r
        | none => none
    | r => some (done.reverse, r)

def part (hs : Handles) : Nat → List Token → Step Node
  | 0, _ => none
  | fuel + 1, r => if endsPart r then some (empty, r) else read hs true true fuel r

def pairs (hs : Handles) : Nat → List (Node × Node) → List Token → Step (List (Node × Node))
  | 0, _, _ => none
  | fuel + 1, done, ts =>
    match ts with
    | .blockEnd :: r => some (done.reverse, r)
    | .key :: r =>
      match part hs fuel r with
      | none => none
      | some (k, .value :: r) =>
        match part hs fuel r with
        | none => none
        | some (v, r) => pairs hs fuel ((k, v) :: done) r
      | some (k, r) => pairs hs fuel ((k, empty) :: done) r
    | _ => none

def flowItems (hs : Handles) : Nat → Bool → List Node → List Token → Step (List Node)
  | 0, _, _, _ => none
  | fuel + 1, first, done, ts =>
    match ts with
    | .bracketClose :: r => some (done.reverse, r)
    | ts =>
      match (if first then some ts else match ts with | .comma :: r => some r | _ => none) with
      | none => none
      | some (.bracketClose :: r) => some (done.reverse, r)
      | some (.key :: r) =>
        match flowPair hs fuel r with
        | none => none
        | some (pair, r) => flowItems hs fuel false (.mapping ⟨none, none⟩ [pair] :: done) r
      | some r =>
        match read hs false false fuel r with
        | none => none
        | some (x, r) => flowItems hs fuel false (x :: done) r

def flowPair (hs : Handles) : Nat → List Token → Step (Node × Node)
  | 0, _ => none
  | fuel + 1, r =>
    match
      (if endsFlowKey .bracketClose r then some (empty, r.drop 1)
      else read hs false false fuel r) with
    | none => none
    | some (k, .value :: r) =>
      if endsFlowValue .bracketClose r then some ((k, empty), r)
      else (read hs false false fuel r).map fun (v, r) => ((k, v), r)
    | some (k, r) => some ((k, empty), r)

def flowPairs (hs : Handles) :
    Nat → Bool → List (Node × Node) → List Token → Step (List (Node × Node))
  | 0, _, _, _ => none
  | fuel + 1, first, done, ts =>
    match ts with
    | .braceClose :: r => some (done.reverse, r)
    | ts =>
      match (if first then some ts else match ts with | .comma :: r => some r | _ => none) with
      | none => none
      | some (.braceClose :: r) => some (done.reverse, r)
      | some (.key :: r) =>
        match
          (if endsFlowKey .braceClose r then some (empty, r)
          else read hs false false fuel r) with
        | none => none
        | some (k, .value :: r) =>
          if endsFlowValue .braceClose r then flowPairs hs fuel false ((k, empty) :: done) r
          else
            match read hs false false fuel r with
            | none => none
            | some (v, r) => flowPairs hs fuel false ((k, v) :: done) r
        | some (k, r) => flowPairs hs fuel false ((k, empty) :: done) r
      | some r =>
        match read hs false false fuel r with
        | none => none
        | some (k, r) => flowPairs hs fuel false ((k, empty) :: done) r
end

structure Directives where
  hasVersion : Bool
  handles : Handles

def directives : Directives → List Token → Step Directives
  | d, .version major minor :: r =>
    if d.hasVersion || major != 1 || !(minor == 1 || minor == 2) then none
    else directives { d with hasVersion := true } r
  | d, .shorthand handle stem :: r =>
    if d.handles.any fun h => h.1 == handle then none
    else directives { d with handles := (handle, stem) :: d.handles } r
  | d, r => some (d, r)

def hasDirective : List Token → Bool
  | .version _ _ :: _ => true
  | .shorthand _ _ :: _ => true
  | _ => false

def endsDocument : List Token → Bool
  | [] => true
  | .documentStart :: _ => true
  | .documentEnd :: _ => true
  | r => hasDirective r

def content (hs : Handles) (ts : List Token) : Step Node :=
  if endsDocument ts then some (empty, ts)
  else read (hs ++ standardHandles) true false (4 * ts.length + 4) ts

def document (first : Bool) (ts : List Token) : Step (Option Node) :=
  let ts := if first then ts else ts.dropWhile (· == .documentEnd)
  match ts with
  | [] => some (none, [])
  | t :: _ =>
    if first && !(hasDirective ts || t == .documentStart) then
      (read standardHandles true false (4 * ts.length + 4) ts).map fun (x, r) => (some x, r)
    else
      match directives ⟨false, []⟩ ts with
      | some (d, .documentStart :: r) => (content d.handles r).map fun (x, r) => (some x, r)
      | _ => none

/-- The one document of a text: its content, if there is any. A second document breaks the rules. -/
def ofTokens? (ts : List Token) : Option (Option Node) := do
  let (x, r) ← document true ts
  match x with
  | none => some none
  | some x =>
    let r := match r with | .documentEnd :: r => r | r => r
    let (y, _) ← document false r
    if y.isNone then some (some x) else none

end Node

end AccessControl.Settings.Yaml
