import AccessControl.Http.Script
import AccessControl.Identity.Directory
import AccessControl.Identity.Service

/-!
# Providers of identities

Where the groups of users come from: a directory in memory, a service that is asked over the
network, or something that always fails.
-/

namespace AccessControl

inductive Provider where
  | directory (d : Directory)
  | failing (e : IdentityError)
  | service (e : Endpoint) (s : Http.Script)

namespace Provider

def lookup (user : String) : Provider → Except IdentityError (List Group) × Provider
  | .directory d => (d.lookupGroups user, .directory d)
  | .failing e => (.error e, .failing e)
  | .service e s =>
    let (r, s) := (e.lookupGroups user).run Http.Script.answer s
    (r, .service e s)

def changeDirectory (f : Directory → Directory) : Provider → Provider
  | .directory d => .directory (f d)
  | p => p

end Provider

end AccessControl
