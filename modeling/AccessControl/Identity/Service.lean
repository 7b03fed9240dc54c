import AccessControl.Http.Message
import AccessControl.Identity.Endpoint
import AccessControl.Identity.Group

/-!
# The identity service

A lookup asks the service for the groups of one user. The body of its answer is a list of groups, or
an object that holds such a list under `groups`.
-/

namespace AccessControl

namespace Group

def listOfJson? : List Json → Option (List Group)
  | [] => some []
  | v :: vs =>
    match Json.decodeAs fields ofScalars v with
    | .error _ => none
    | .ok g => (listOfJson? vs).map (g :: ·)

def membersNamed (name : String) (ms : List (String × Json)) : List Json :=
  (ms.filter fun m => m.1 = name).map (·.2)

/-- The groups that a reply writes: alone, or as the one member `groups` of an object. -/
def listOfReply? : Json → Option (List Group)
  | .arr items => listOfJson? items
  | .obj members =>
    match membersNamed "groups" members with
    | [.arr items] => listOfJson? items
    | _ => none
  | _ => none

def listOfBody? (body : List UInt8) : Option (List Group) :=
  match Text.ofUtf8? body with
  | none => none
  | some cs =>
    match Json.parse (String.ofList cs) with
    | .error _ => none
    | .ok v => listOfReply? v

end Group

namespace Endpoint

open Http

def classify (user : String) (r : Reply) : Except IdentityError (List Group) :=
  if r.status = 404 then .error (.userNotFound user)
  else if isSuccess r.status then
    match Group.listOfBody? r.body with
    | some gs => .ok gs
    | none => .error (.invalidResponse "error decoding response body")
  else .error (.unavailable ("unexpected status " ++ statusText r.status ++ " resolving groups"))

def remarkOn (user : String) (r : Reply) : Conversation Unit :=
  if r.status = 404 then .done ()
  else if isSuccess r.status then
    match Group.listOfBody? r.body with
    | some gs => .remark .debug
        ("Identity provider returned " ++ toString gs.length ++ " groups for user " ++ user)
    | none => .done ()
  else .remark .warn
    ("Identity provider returned " ++ statusText r.status ++ " for user " ++ user)

def lookupGroups (e : Endpoint) (user : String) :
    Conversation (Except IdentityError (List Group)) :=
  match e.groupsAddress? user with
  | none => .done (.error (.userNotFound user))
  | some a =>
    .note ⟨.debug, "Fetching groups for user " ++ user ++ " from " ++ a.text⟩
      ((get e.names a e.token).bind fun
        | .error err => .done (.error (.unavailable err.message))
        | .ok r => (remarkOn user r).bind fun _ => .done (classify user r))

end Endpoint

end AccessControl
