import AccessControl.Dialogue
import AccessControl.Settings.Sections

/-!
# What the program reads from its settings

An explicit file, or the file of the standard name where it exists, with the environment laid over
it.
-/

namespace AccessControl

structure ProgramConfig where
  permissions : PermissionConfig
  dataSources : List DataSourceConfig
  identity : Option IdentityConfig
deriving DecidableEq, Repr, Inhabited

namespace ProgramConfig

def standardFile : String := "permctl.yaml"

def variableStart : String := "PERMCTL_"

def layers (p : Settings.Place) (path : Option String) : List Settings.Layer :=
  let file :=
    match path with
    | some path => [.file path]
    | none => if (p.file? standardFile).isSome then [.file standardFile] else []
  file ++ [.environment variableStart]

def notes (p : Settings.Place) (path : Option String) : List Note :=
  if path.isNone && (p.file? standardFile).isNone then
    [⟨.debug, "No " ++ standardFile ++ " found, using environment only"⟩]
  else []

/-- The first failure is that of the identity section, then that of the permissions. -/
def ofSettings (s : Settings) : Except SettingsError ProgramConfig := do
  let identity ← s.identity?
  let permissions ← s.permissions
  let dataSources ← s.dataSources
  .ok ⟨permissions, dataSources, identity⟩

def load (p : Settings.Place) (path : Option String) : Except SettingsError ProgramConfig := do
  let s ← Settings.ofLayers p (layers p path)
  ofSettings s

end ProgramConfig

end AccessControl
