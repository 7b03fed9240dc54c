import AccessControl.Authority.Session

/-!
# Commands

Each command stands for one operation of an authority, and says what came of it.
-/

namespace AccessControl

inductive Command where
  | add (p : Permission)
  | delete (p : Permission)
  | grant (p : Permission) (roleId : String) (roleName : Option String)
  | revoke (p : Permission) (roleId : Option String)
  | check (p : Permission) (user : String)
  | roles (p : Permission)
deriving DecidableEq, Repr

inductive Outcome where
  | done (message : String)
  | decision (user permission : String) (allowed : Bool)
  | roles (permission : String) (ids : List String)
deriving DecidableEq, Repr

namespace Outcome

def text : Outcome → String
  | .done message => message
  | .decision user permission allowed =>
    (if allowed then "allowed" else "denied") ++ ": " ++ user ++ " " ++ permission
  | .roles _ ids => String.intercalate "\n" ids

def toJson : Outcome → Json
  | .done message => .obj [("result", .str "done"), ("message", .str message)]
  | .decision user permission allowed =>
    .obj [("result", .str "decision"), ("user", .str user), ("permission", .str permission),
      ("allowed", .bool allowed)]
  | .roles permission ids =>
    .obj [("result", .str "roles"), ("permission", .str permission), ("roles", Json.strings ids)]

def notes : Outcome → List Note
  | .done message => [⟨.info, message⟩]
  | _ => []

end Outcome

namespace Command

def role (id : String) (name : Option String) : Role := ⟨id, name.getD id⟩

def permission : Command → Permission
  | .add p | .delete p | .grant p _ _ | .revoke p _ | .check p _ | .roles p => p

def resolvesUsers : Command → Bool
  | .check _ _ => true
  | _ => false

/-- Roles are revoked one by one, or all where none is named. -/
def operation : Command → Operation
  | .add p => .add p
  | .delete p => .delete p
  | .grant p id name => .grant p (role id name)
  | .revoke p (some id) => .revoke p (role id none)
  | .revoke p none => .revokeAll p
  | .check p user => .check user p
  | .roles p => .grantedRoles p

def outcome : (c : Command) → c.operation.Answer → Outcome
  | .add p, _ => .done ("Added permission " ++ p.text)
  | .delete p, _ => .done ("Deleted permission " ++ p.text)
  | .grant p id name, _ => .done ("Granted " ++ p.text ++ " to " ++ (role id name).text)
  | .revoke p (some id), _ => .done ("Revoked " ++ p.text ++ " from " ++ (role id none).text)
  | .revoke p none, _ => .done ("Revoked " ++ p.text ++ " from all roles")
  | .check p user, allowed => .decision user p.text allowed
  | .roles p, ids => .roles p.text ids

end Command

namespace Authority

def execute (a : Authority) (c : Command) :
    Conversation (Except AuthorityError Outcome × Authority) :=
  (a.perform c.operation).bind fun
    | (.error e, a) => .done (.error e, a)
    | (.ok x, a) =>
      (c.outcome x).notes.foldr (fun n d => .note n d) (.done (.ok (c.outcome x), a))

end Authority

def Session.execute (n : Nat) (c : Command) (s : Session) :
    Option (Except AuthorityError Outcome × Session) :=
  s.converse n fun a => a.execute c

end AccessControl
