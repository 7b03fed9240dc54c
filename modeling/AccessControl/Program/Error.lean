import AccessControl.Authority.Error
import AccessControl.DataSource.Error

/-!
# Failures of a run
-/

namespace AccessControl

inductive RunError where
  | settings (e : SettingsError)
  | dataSources (e : DatabaseError)
  | noIdentity
  | identity (e : IdentityError)
  | operation (e : AuthorityError)
deriving DecidableEq, Repr

namespace RunError

def message : RunError → String
  | .settings _ => "Failed to load configuration"
  | .dataSources _ => "Failed to open data sources"
  | .noIdentity => "`check` requires an `identity` section in the configuration"
  | .identity e => e.message
  | .operation e => e.message

def cause? : RunError → Option String
  | .settings e => some e.message
  | .dataSources e => some e.message
  | .operation (.roleResolution _ e) => some e.message
  | _ => none

def indented (s : String) : String :=
  "    " ++ String.ofList (s.toList.flatMap fun c => if c = '\n' then "\n    ".toList else [c])

def text (e : RunError) : String :=
  "Error: " ++ e.message ++
    (match e.cause? with | some c => "\n\nCaused by:\n" ++ indented c | none => "") ++ "\n"

end RunError

end AccessControl
