import AccessControl.Program.Usage

/-!
# Options on a command line

Options come in any order, each once. The value of an option stands behind a sign of equality or is
the next word, unless that word looks like an option itself; several options of one letter may share
a word. A value is taken in when the next option is met, so a fault of its own comes to light only
then.
-/

namespace AccessControl.Program

inductive Form where
  | flag
  | value (mayBeEmpty : Bool)
  | help
  | version
deriving DecidableEq, Repr

structure Parameter where
  name : String
  letter : Option Char
  form : Form
deriving DecidableEq, Repr

namespace Parameter

def takesValue (p : Parameter) : Bool :=
  match p.form with
  | .value _ => true
  | _ => false

def accepts (p : Parameter) (text : String) : Bool :=
  match p.form with
  | .value false => !text.isEmpty
  | _ => true

end Parameter

inductive Word where
  | separator
  | long (name : String) (attached : Option String)
  | letters (cs : List Char)
  | plain
deriving DecidableEq, Repr

def Word.ofString (s : String) : Word :=
  match s.toList with
  | ['-', '-'] => .separator
  | '-' :: '-' :: cs =>
    let name := String.ofList (cs.takeWhile (· != '='))
    match cs.dropWhile (· != '=') with
    | [] => .long name none
    | _ :: text => .long name (some (String.ofList text))
  | '-' :: c :: cs => .letters (c :: cs)
  | _ => .plain

/-- The options given so far, and the one whose value is awaited or not yet taken in. -/
structure Given where
  values : List (String × String)
  pending : Option (Parameter × Option String)
deriving DecidableEq, Repr

namespace Given

def empty : Given := ⟨[], none⟩

def get? (g : Given) (name : String) : Option String :=
  (g.values.find? fun v => v.1 = name).map (·.2)

def has (g : Given) (name : String) : Bool := (g.get? name).isSome

def record (p : Parameter) (text : String) (g : Given) : Except UsageError Given :=
  if g.has p.name then .error .repeated
  else if !p.accepts text then .error .invalidValue
  else .ok { g with values := g.values ++ [(p.name, text)] }

theorem record_eq_ok_iff {p : Parameter} {text : String} {g g' : Given} :
    g.record p text = .ok g' ↔
      g.has p.name = false ∧ p.accepts text = true ∧
        g' = { g with values := g.values ++ [(p.name, text)] } := by
  unfold record
  by_cases h : g.has p.name <;> by_cases ha : p.accepts text <;> simp [h, ha, eq_comm]

def settle (g : Given) : Except UsageError Given :=
  match g.pending with
  | none => .ok g
  | some (_, none) => .error .invalidValue
  | some (p, some text) => record p text { g with pending := none }

def awaiting? (g : Given) : Option Parameter :=
  match g.pending with
  | some (p, none) => some p
  | _ => none

def meet (p : Parameter) (attached : Option String) (g : Given) : Except UsageError Given := do
  let g ← g.settle
  match p.form, attached with
  | .value _, some text => g.record p text
  | .value _, none => .ok { g with pending := some (p, none) }
  | .flag, _ => g.record p "true"
  | .help, _ => .error .help
  | .version, _ => .error .version

/-- Options of one letter in one word. What follows one with a value is its value. -/
def meetLetters (ps : List Parameter) (g : Given) : List Char → Except UsageError Given
  | [] => .ok g
  | c :: cs =>
    match ps.find? fun p => p.letter = some c with
    | none => .error .unknownArgument
    | some p =>
      if p.takesValue then
        match cs with
        | [] => g.meet p none
        | '=' :: text => g.meet p (some (String.ofList text))
        | text => g.meet p (some (String.ofList text))
      else do
        let g ← g.meet p none
        g.meetLetters ps cs

def stray (commands : List String) : UsageError :=
  if commands.isEmpty then .unknownArgument else .unknownCommand

def scan (ps : List Parameter) (commands : List String) (g : Given) :
    List String → Except UsageError (Given × List String)
  | [] => .ok (g, [])
  | w :: ws =>
    if g.awaiting?.isNone && commands.contains w then .ok (g, w :: ws)
    else
      match Word.ofString w with
      | .separator =>
        match ws with
        | [] => .ok (g, [])
        | v :: _ => .error (if commands.contains v then .unknownArgument else stray commands)
      | .long name attached =>
        match ps.find? fun p => p.name = name with
        | none => .error .unknownArgument
        | some p =>
          if attached.isSome && !p.takesValue then .error .surplusValue
          else do
            let g ← g.meet p attached
            scan ps commands g ws
      | .letters cs => do
        let g ← g.meetLetters ps cs
        scan ps commands g ws
      | .plain =>
        match g.awaiting? with
        | some p => scan ps commands { g with pending := some (p, some w) } ws
        | none => .error (stray commands)

end Given

end AccessControl.Program
