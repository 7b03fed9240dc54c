import AccessControl.Permission.Call
import AccessControl.Postgres.Command

/-!
# The store in tables

Each call on the store is a conversation of one or two statements with the server that holds the
tables.
-/

namespace AccessControl.Postgres

open Sql

abbrev Conversation : Type → Type := Dialogue Command fun _ => Answer

def uniqueViolation : String := "23505"

def foreignKeyViolation : String := "23503"

def storageError {α : Type} (c : Command) (f : Failure) : Conversation (Except StoreError α) :=
  let text := c.context ++ ": " ++ f.message
  .note ⟨.error, text⟩ (.done (.error (.storage text)))

def ensureSchema (t : Tables) : Conversation (Except StoreError Unit) :=
  create [.createPermissions, .createGrants, .createIndex]
where
  create : List Command → Conversation (Except StoreError Unit)
    | [] =>
      .note ⟨.info, "Permission tables ready: " ++ t.permissions ++ ", " ++ t.grants⟩
        (.done (.ok ()))
    | c :: cs =>
      .ask c fun
        | .error f => storageError c f
        | .ok _ => create cs

def withId {α : Type} (p : Permission) (next : Int → Conversation (Except StoreError α)) :
    Conversation (Except StoreError α) :=
  .ask (.findPermission p) fun a =>
    match a.bind (Table.optional Value.int?) with
    | .error f => storageError (.findPermission p) f
    | .ok none => .done (.error (.notFound p))
    | .ok (some id) => next id

/-- A count of grants as it is reported: one that is negative counts as the largest. -/
def reportedCount (n : Int) : Nat := if 0 ≤ n then n.toNat else UInt64.size - 1

def stillGranted (p : Permission) : Conversation (Except StoreError Unit) :=
  .ask (.countGrants p) fun a =>
    match a.bind (Table.required Value.int?) with
    | .error f => storageError (.countGrants p) f
    | .ok n => .done (.error (.stillGranted p (reportedCount n)))

def insert (p : Permission) : Conversation (Except StoreError Unit) :=
  .ask (.insertPermission p) fun
    | .ok _ => .done (.ok ())
    | .error f =>
      if f.hasCode uniqueViolation then .done (.error (.alreadyExists p))
      else storageError (.insertPermission p) f

def delete (p : Permission) : Conversation (Except StoreError Unit) :=
  .ask (.deletePermission p) fun
    | .ok t => .done (if t.affected = 0 then .error (.notFound p) else .ok ())
    | .error f =>
      if f.hasCode foreignKeyViolation then stillGranted p
      else storageError (.deletePermission p) f

/-- A grant whose permission has gone since its id was found is a grant of no permission. -/
def grant (p : Permission) (r : Role) : Conversation (Except StoreError Unit) :=
  withId p fun id =>
    .ask (.insertGrant id r.id) fun
      | .ok _ => .done (.ok ())
      | .error f =>
        if f.hasCode foreignKeyViolation then .done (.error (.notFound p))
        else storageError (.insertGrant id r.id) f

def revokeAll (p : Permission) : Conversation (Except StoreError Unit) :=
  .ask (.deleteGrants p) fun
    | .ok t => .note ⟨.debug, "Removed " ++ toString t.affected ++ " grants"⟩ (.done (.ok ()))
    | .error f => storageError (.deleteGrants p) f

def revoke (p : Permission) (r : Role) : Conversation (Except StoreError Unit) :=
  .ask (.deleteGrant p r.id) fun
    | .ok _ => .done (.ok ())
    | .error f => storageError (.deleteGrant p r.id) f

def hasAny (roles : List Role) (p : Permission) : Conversation (Except StoreError Bool) :=
  let c := Command.holdsAny p (roles.map (·.id))
  .ask c fun a =>
    match a.bind (Table.required Value.bool?) with
    | .error f => storageError c f
    | .ok b => .done (.ok b)

def grantedRoles (p : Permission) : Conversation (Except StoreError (List String)) :=
  withId p fun id =>
    .ask (.listRoles id) fun a =>
      match a.bind (Table.all Value.text?) with
      | .error f => storageError (.listRoles id) f
      | .ok ids => .done (.ok ids)

def opening : StoreCall → List Note
  | .insert p => [⟨.debug, "Inserting permission into PostgreSQL: " ++ p.text⟩]
  | .delete p => [⟨.debug, "Deleting permission from PostgreSQL: " ++ p.text⟩]
  | .grant p r => [⟨.debug, "Granting " ++ p.text ++ " to " ++ r.text ++ " in PostgreSQL"⟩]
  | .revokeAll p => [⟨.debug, "Revoking " ++ p.text ++ " from all roles in PostgreSQL"⟩]
  | .revoke p r => [⟨.debug, "Revoking " ++ p.text ++ " from " ++ r.text ++ " in PostgreSQL"⟩]
  | .hasAny _ _ => []
  | .grantedRoles _ => []

def body : (c : StoreCall) → Conversation c.Result
  | .insert p => insert p
  | .delete p => delete p
  | .grant p r => grant p r
  | .revokeAll p => revokeAll p
  | .revoke p r => revoke p r
  | .hasAny roles p => hasAny roles p
  | .grantedRoles p => grantedRoles p

def perform (c : StoreCall) : Conversation c.Result :=
  (opening c).foldr (fun n d => .note n d) (body c)

/-- The store of a configuration opened, where `registered` says whether its data source is
known. -/
def openStore (registered : Bool) (c : PermissionConfig) : Conversation (Except StoreError Unit) :=
  if !registered then .done (.error (.storage ("Data source not found: " ++ c.datasource)))
  else
    let opened : Conversation (Except StoreError Unit) :=
      .note ⟨.info, "Opened PostgreSQL permission store on " ++ c.datasource⟩ (.done (.ok ()))
    if c.createTables then
      (ensureSchema (Tables.ofConfig c)).bind fun
        | .error e => .done (.error e)
        | .ok _ => opened
    else opened

def statements {α : Type} (t : Tables) (d : Conversation α) :
    Dialogue Statement (fun _ => Answer) α :=
  d.refine fun c => .question (c.statement t)

end AccessControl.Postgres
