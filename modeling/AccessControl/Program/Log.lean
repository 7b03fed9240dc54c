import AccessControl.Dialogue
import AccessControl.Json.Printer

/-!
# The log

Notes are shown from a level on, which is lower in a verbose run.
-/

namespace AccessControl.Log

def isShown (verbose : Bool) (n : Note) : Bool :=
  match n.level with
  | .debug => verbose
  | _ => true

def line (json : Bool) (n : Note) : String :=
  if json then
    Json.compact
      (.obj [("level", .str n.level.text), ("fields", .obj [("message", .str n.message)])])
  else n.level.text ++ " " ++ n.message

def filter (verbose : Bool) : String :=
  let level := if verbose then Level.debug else Level.info
  let own :=
    ["permctl", "ops_cli", "auth_permissions", "auth_identity"].map (· ++ "=" ++ level.text)
  String.intercalate "," (own ++ ["sqlx=warn", "reqwest=info"])

end AccessControl.Log
