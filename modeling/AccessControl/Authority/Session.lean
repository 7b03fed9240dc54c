import AccessControl.Authority.Operation
import AccessControl.Authority.Provider
import AccessControl.DataSource.Registry
import AccessControl.Permission.Store
import AccessControl.Postgres.Store

/-!
# Sessions

Several authorities work over one data source, each with the store of its own configuration. Opens
and calls may fail by a schedule; a call that fails so does not reach the store. A session counts
the opens and keeps the calls.
-/

namespace AccessControl

inductive Source where
  | memory (st : Store)
  | tables (registry : Registry) (server : Sql.Server)
deriving DecidableEq, Repr

namespace Source

def converse {α : Type} (c : PermissionConfig) (d : Postgres.Conversation α)
    (r : Registry) (s : Sql.Server) : α × Source :=
  let (a, r, s) :=
    (Postgres.statements (Postgres.Tables.ofConfig c) d).run (Registry.execute c.datasource) (r, s)
  (a, .tables r s)

def openStore (c : PermissionConfig) : Source → Except StoreError Unit × Source
  | .memory st => (.ok (), .memory st)
  | .tables r s => converse c (Postgres.openStore (r.pool? c.datasource).isSome c) r s

def call (c : PermissionConfig) (k : StoreCall) : Source → k.Result × Source
  | .memory st =>
    let (r, st) := Store.apply k st
    (r, .memory st)
  | .tables r s => converse c (Postgres.perform k) r s

end Source

/-- The call of a kind, counted from one, that fails, and the error that it then ends with. -/
structure CallFault where
  method : StoreCall.Method
  nth : Nat
  error : StoreCall → StoreError

structure Surroundings where
  source : Source
  providers : List Provider
  openFaults : List (Option StoreError)
  callFaults : List CallFault
  opens : Nat
  calls : List StoreCall

namespace Surroundings

def answerOpen (c : PermissionConfig) (s : Surroundings) : Except StoreError Unit × Surroundings :=
  let fault := s.openFaults.head?.getD none
  let s := { s with openFaults := s.openFaults.tail, opens := s.opens + 1 }
  match fault with
  | some e => (.error e, s)
  | none =>
    let (r, source) := s.source.openStore c
    (r, { s with source })

def fault? (s : Surroundings) (k : StoreCall) : Option StoreError :=
  let n := (s.calls.filter fun c => c.method = k.method).length + 1
  (s.callFaults.find? fun f => f.method = k.method && f.nth = n).map (·.error k)

def answerCall (own : PermissionConfig) (k : StoreCall) (s : Surroundings) :
    k.Result × Surroundings :=
  let fault := s.fault? k
  let s := { s with calls := s.calls ++ [k] }
  match fault with
  | some e => (.error e, s)
  | none =>
    let (r, source) := s.source.call own k
    (r, { s with source })

def answerGroups (id : ProviderId) (user : String) (s : Surroundings) :
    Except IdentityError (List Group) × Surroundings :=
  match s.providers[id]? with
  | none => (.error (.unavailable "no such provider"), s)
  | some p =>
    let (r, p) := p.lookup user
    (r, { s with providers := s.providers.set id p })

def answer (own : PermissionConfig) : (n : Need) → Surroundings → n.Answer × Surroundings
  | .store c, s => s.answerOpen c
  | .call k, s => s.answerCall own k
  | .groups id user, s => s.answerGroups id user

end Surroundings

/-- The configuration that the store of an authority was opened with. -/
def Authority.own (a : Authority) : PermissionConfig := a.config.getD .standard

structure Session where
  authorities : List Authority
  surroundings : Surroundings

namespace Session

/-- A conversation of one of the authorities. There is none with one that does not exist. -/
def converse {α : Type} (n : Nat) (d : Authority → Authority.Conversation (α × Authority))
    (s : Session) : Option (α × Session) :=
  match s.authorities[n]? with
  | none => none
  | some a =>
    let ((r, a), surroundings) := (d a).run (Surroundings.answer a.own) s.surroundings
    some (r, ⟨s.authorities.set n a, surroundings⟩)

def perform (n : Nat) (o : Operation) (s : Session) : Option (o.Result × Session) :=
  s.converse n fun a => a.perform o

def give (p : Provider) (s : Session) : ProviderId × Session :=
  let ps := s.surroundings.providers
  (ps.length, { s with surroundings := { s.surroundings with providers := ps ++ [p] } })

def changeDirectoryAt (i : ProviderId) (f : Directory → Directory) (s : Session) : Session :=
  let ps := s.surroundings.providers.modify i (·.changeDirectory f)
  { s with surroundings := { s.surroundings with providers := ps } }

end Session

end AccessControl
