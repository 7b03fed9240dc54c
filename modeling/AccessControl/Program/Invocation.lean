import AccessControl.Program.Command
import AccessControl.Program.Option

/-!
# The command line

Options of the program, then a command with options of its own.
-/

namespace AccessControl

open Program

inductive Verb where
  | add
  | delete
  | grant
  | revoke
  | check
  | roles
deriving DecidableEq, Repr

namespace Verb

def all : List Verb := [.add, .delete, .grant, .revoke, .check, .roles]

def name : Verb → String
  | .add => "add"
  | .delete => "delete"
  | .grant => "grant"
  | .revoke => "revoke"
  | .check => "check"
  | .roles => "roles"

def ofName? (s : String) : Option Verb := all.find? fun v => v.name = s

theorem ofName?_name (v : Verb) : ofName? v.name = some v := by
  cases v <;> rfl

def valueNames : Verb → List String
  | .add | .delete | .roles => ["resource", "action"]
  | .grant => ["resource", "action", "role-id", "role-name"]
  | .revoke => ["resource", "action", "role-id"]
  | .check => ["resource", "action", "user"]

def helpParameter : Parameter := ⟨"help", some 'h', .help⟩

def parameters (v : Verb) : List Parameter :=
  v.valueNames.map (fun name => ⟨name, none, .value true⟩) ++ [helpParameter]

end Verb

namespace Command

def verb : Command → Verb
  | .add _ => .add
  | .delete _ => .delete
  | .grant _ _ _ => .grant
  | .revoke _ _ => .revoke
  | .check _ _ => .check
  | .roles _ => .roles

def ofValues? (v : Verb) (value? : String → Option String) : Option Command := do
  let p : Permission := ⟨← value? "resource", ← value? "action"⟩
  match v with
  | .add => some (.add p)
  | .delete => some (.delete p)
  | .grant => some (.grant p (← value? "role-id") (value? "role-name"))
  | .revoke => some (.revoke p (value? "role-id"))
  | .check => some (.check p (← value? "user"))
  | .roles => some (.roles p)

def parse (v : Verb) (words : List String) : Except UsageError Command := do
  let (g, _) ← Given.scan v.parameters [] .empty words
  let g ← g.settle
  match ofValues? v g.get? with
  | some c => .ok c
  | none => .error .missingArgument

end Command

structure Invocation where
  config : Option String
  verbose : Bool
  jsonLogs : Bool
  json : Bool
  command : Command
deriving DecidableEq, Repr

namespace Invocation

def configParameter : Parameter := ⟨"config", some 'c', .value false⟩

def configVariable : String := "PERMCTL_CONFIG"

def parameters : List Parameter := [
  configParameter,
  ⟨"verbose", some 'v', .flag⟩,
  ⟨"json-logs", none, .flag⟩,
  ⟨"json", none, .flag⟩,
  Verb.helpParameter,
  ⟨"version", some 'V', .version⟩]

def helpWord : String := "help"

def commandWords : List String := helpWord :: Verb.all.map Verb.name

def helpFault (words : List String) : UsageError :=
  if words.length ≤ 1 && words.all commandWords.contains then .help else .unknownCommand

def command? : List String → Except UsageError (Option Command)
  | [] => .ok none
  | w :: ws =>
    match Verb.ofName? w with
    | some v => (Command.parse v ws).map some
    | none => .error (helpFault ws)

def withFallback (path : Option String) (g : Given) : Except UsageError Given :=
  match path with
  | some path => if g.has configParameter.name then .ok g else g.record configParameter path
  | none => .ok g

/-- The words of a command line, with the path of a configuration file to fall back on. Faults of
the command come before those of the value last given to the program. -/
def parse (fallback : Option String) (words : List String) : Except UsageError Invocation := do
  let (g, rest) ← Given.scan parameters commandWords .empty words
  let command ← command? rest
  let g ← g.settle
  let g ← withFallback fallback g
  match command with
  | some c =>
    .ok ⟨g.get? configParameter.name, g.has "verbose", g.has "json-logs", g.has "json", c⟩
  | none => .error (if g.values.isEmpty then .nothingGiven else .missingCommand)

end Invocation

end AccessControl
