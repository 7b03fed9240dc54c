import AccessControl.Authority.Error
import AccessControl.Dialogue
import AccessControl.Identity.Directory
import AccessControl.Permission.Call
import AccessControl.Permission.Config

/-!
# Operations of an authority

An authority manages permissions in a store that it opens when it is first needed, and decides about
users whose groups it looks up each time. What it needs for an operation it asks for, one question
after another: the store opened, a call on the store, the groups of a user.
-/

namespace AccessControl

abbrev ProviderId := Nat

structure Authority where
  hasSource : Bool
  config : Option PermissionConfig
  provider : Option ProviderId
  opened : Bool
deriving DecidableEq, Repr

inductive Operation where
  | add (p : Permission)
  | delete (p : Permission)
  | grant (p : Permission) (r : Role)
  | revokeAll (p : Permission)
  | revoke (p : Permission) (r : Role)
  | grantedRoles (p : Permission)
  | check (user : String) (p : Permission)
  | bind (provider : ProviderId)
  | unbind
deriving DecidableEq, Repr

abbrev Operation.Answer : Operation → Type
  | check _ _ => Bool
  | grantedRoles _ => List String
  | _ => Unit

abbrev Operation.Result (o : Operation) : Type := Except AuthorityError o.Answer

inductive Need where
  | store (c : PermissionConfig)
  | call (c : StoreCall)
  | groups (provider : ProviderId) (user : String)
deriving DecidableEq, Repr

abbrev Need.Answer : Need → Type
  | store _ => Except StoreError Unit
  | call c => c.Result
  | groups _ _ => Except IdentityError (List Group)

namespace Authority

abbrev Conversation : Type → Type := Dialogue Need Need.Answer

def new (hasSource : Bool) (config : Option PermissionConfig) (provider : Option ProviderId) :
    Authority :=
  ⟨hasSource, config, provider, false⟩

/-- An authority with its store open. A store is opened once; an attempt that fails is made again
when the store is next needed. -/
def ready (a : Authority) : Conversation (Except AuthorityError Authority) :=
  if a.opened then .done (.ok a)
  else if !a.hasSource then .done (.error (.configuration "no data source is bound"))
  else
    match a.config with
    | none => .done (.error (.configuration "no permission configuration is set"))
    | some c =>
      .ask (.store c) fun
        | .error e =>
          .note ⟨.warn, "Failed opening permission store on " ++ c.datasource ++ ": " ++ e.message⟩
            (.done (.error (.store e)))
        | .ok _ =>
          .note ⟨.info, "Permission store initialized on " ++ c.datasource⟩
            (.done (.ok { a with opened := true }))

def withStore {α : Type} (a : Authority) (d : Conversation (Except AuthorityError α)) :
    Conversation (Except AuthorityError α × Authority) :=
  a.ready.bind fun
    | .error e => .done (.error e, a)
    | .ok a => d.map fun r => (r, a)

def call (c : StoreCall) : Conversation (Except AuthorityError c.Answer) :=
  .ask (.call c) fun r => .done (r.mapError .store)

def deletion (p : Permission) : Conversation (Except AuthorityError Unit) :=
  .ask (.call (.revokeAll p)) fun
    | .error e =>
      .note ⟨.warn, "Failed revoking " ++ p.text ++ " before delete: " ++ e.message⟩
        (.done (.error (.store e)))
    | .ok _ =>
      .ask (.call (.delete p)) fun
        | .error e => .done (.error (.store e))
        | .ok _ => .note ⟨.info, "Deleted permission " ++ p.text⟩ (.done (.ok ()))

def decision (user : String) (p : Permission) (roles : List Role) :
    Conversation (Except AuthorityError Bool) :=
  .ask (.call (.hasAny roles p)) fun
    | .error e => .done (.error (.store e))
    | .ok b =>
      .note ⟨.debug, "Permission check " ++ p.text ++ " for " ++ user ++ ": " ++ toString b⟩
        (.done (.ok b))

/-- A check: the user's groups are looked up, and a user who has none is denied without the
store. -/
def checking (a : Authority) (user : String) (p : Permission) :
    Conversation (Except AuthorityError Bool × Authority) :=
  match a.provider with
  | none => .done (.error (.configuration "no identity provider is bound"), a)
  | some provider =>
    .ask (.groups provider user) fun
      | .error e =>
        .note ⟨.warn, "Failed getting roles of user " ++ user ++ ": " ++ e.message⟩
          (.done (.error (.roleResolution user e), a))
      | .ok gs =>
        .note ⟨.debug, "User " ++ user ++ " belongs to " ++ toString gs.length ++ " groups"⟩ <|
          if gs.isEmpty then
            .note ⟨.debug, "User " ++ user ++ " has no roles, denying " ++ p.text⟩
              (.done (.ok false, a))
          else a.withStore (decision user p (Role.ofGroups gs))

def perform (a : Authority) : (o : Operation) → Conversation (o.Result × Authority)
  | .add p =>
    .note ⟨.debug, "Adding permission " ++ p.text⟩ (a.withStore (call (.insert p)))
  | .delete p =>
    .note ⟨.debug, "Deleting permission " ++ p.text⟩ (a.withStore (deletion p))
  | .grant p r =>
    .note ⟨.debug, "Granting " ++ p.text ++ " to " ++ r.text⟩ (a.withStore (call (.grant p r)))
  | .revokeAll p =>
    .note ⟨.debug, "Revoking " ++ p.text ++ " from all roles"⟩ (a.withStore (call (.revokeAll p)))
  | .revoke p r =>
    .note ⟨.debug, "Revoking " ++ p.text ++ " from " ++ r.text⟩ (a.withStore (call (.revoke p r)))
  | .grantedRoles p => a.withStore (call (.grantedRoles p))
  | .check user p => a.checking user p
  | .bind provider =>
    .note ⟨.info, "Identity provider bound to permission authority"⟩
      (.done (.ok (), { a with provider := some provider }))
  | .unbind =>
    .note ⟨.info, "Identity provider unbound from permission authority"⟩
      (.done (.ok (), { a with provider := none }))

end Authority

end AccessControl
