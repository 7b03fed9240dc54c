import AccessControl.Proofs.Program.Backing
import AccessControl.Proofs.Program.CommandLine

/-!
# A run performs one operation

Once its settings are loaded, its data sources connected and, for a check, its service made out, a
run sends what a new authority sends that performs the operation of the command, and reports what
came of it. Where one of these fails nothing is sent.
-/

namespace AccessControl.Program

open Sql

def fresh (c : PermissionConfig) (r : Registry) (s : Server) (e : Option Endpoint)
    (service : Http.Script) : Session :=
  ⟨[.new true (some c) (e.map fun _ => 0)],
    ⟨.tables r s, (e.map fun e => .service e service).toList, [], [], 0, []⟩⟩

variable {names : Web.Idna} {α : Type} {p : Settings.Place} {peers : Peers} {words : List String}
  {i : Invocation} {c : ProgramConfig} {k : Command} {r : Registry} {s server : Server}
  {e : Option Endpoint} {b : Backing}

end AccessControl.Program
