import AccessControl.Identity.Config
import AccessControl.Identity.Error
import AccessControl.Web.Segments

/-!
# The endpoint of an identity service

The groups of a user are found below the base address, at `users`, the name and `groups`. The names
that paths give a meaning of their own belong to no user.
-/

namespace AccessControl

open Web

structure Endpoint where
  base : Address
  token : Option String
  /-- How the names of hosts are read that the service sends its readers on to. -/
  names : Idna

namespace Endpoint

def ofConfig (names : Idna) (c : IdentityConfig) : Except IdentityError Endpoint :=
  match Address.parse names c.baseUrl with
  | .error e => .error (.config ("Invalid base URL " ++ c.baseUrl ++ ": " ++ e.message))
  | .ok a =>
    match a.path with
    | .bare _ => .error (.config ("Base URL cannot carry a path: " ++ c.baseUrl))
    | .segments _ => .ok ⟨a, c.token, names⟩

def isRefused (user : String) : Bool := user == "" || user == "." || user == ".."

def groupsAddress? (e : Endpoint) (user : String) : Option Address :=
  if isRefused user then none else some (e.base.addSegments ["users", user, "groups"])

end Endpoint

end AccessControl
