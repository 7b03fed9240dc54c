import AccessControl.DataSource.Registry
import AccessControl.Http.Script
import AccessControl.Identity.Service
import AccessControl.Json.Printer
import AccessControl.Postgres.Store
import AccessControl.Program.Config
import AccessControl.Program.Error
import AccessControl.Program.Invocation
import AccessControl.Program.Log
import AccessControl.Settings.VariableFile

/-!
# A run of the program

A run reads its variables and settings, connects its data sources and has an authority of its own
carry out one command. What the authority needs is refined to statements and requests, and those are
all that leaves the program.
-/

namespace AccessControl.Program

inductive Effect where
  | execute (pool : String) (q : Sql.Statement)
  | request (q : Http.Request)
deriving DecidableEq, Repr

abbrev Effect.Answer : Effect → Type
  | execute _ _ => Sql.Answer
  | request _ => Option Http.Reply

abbrev Conversation : Type → Type := Dialogue Effect Effect.Answer

/-- What the needs of an authority are met from. -/
structure Backing where
  registry : Registry
  config : PermissionConfig
  endpoint : Option Endpoint

namespace Backing

def onTables {α : Type} (c : PermissionConfig) (d : Postgres.Conversation α) : Conversation α :=
  (Postgres.statements (Postgres.Tables.ofConfig c) d).refine fun q =>
    .question (.execute c.datasource q)

def onService {α : Type} (d : Http.Conversation α) : Conversation α :=
  d.refine fun q => .question (.request q)

def meet (b : Backing) : (n : Need) → Conversation n.Answer
  | .store c => onTables c (Postgres.openStore (b.registry.pool? c.datasource).isSome c)
  | .call k => onTables b.config (Postgres.perform k)
  | .groups _ user =>
    match b.endpoint with
    | some e => onService (e.lookupGroups user)
    | none => .done (.error (.unavailable "no service is known"))

def authority (b : Backing) : Authority :=
  .new true (some b.config) (b.endpoint.map fun _ => 0)

def carryOut (b : Backing) (k : Command) : Conversation (Except AuthorityError Outcome) :=
  ((b.authority.execute k).refine b.meet).map (·.1)

end Backing

def endpoint? (names : Web.Idna) (c : ProgramConfig) (k : Command) :
    Except RunError (Option Endpoint) :=
  if k.resolvesUsers then
    match c.identity with
    | none => .error .noIdentity
    | some i =>
      match Endpoint.ofConfig names i with
      | .error e => .error (.identity e)
      | .ok e => .ok (some e)
  else .ok none

/-- The data sources connected, then the service made out. -/
def prepare (names : Web.Idna) (c : ProgramConfig) (k : Command) :
    Connecting (Except RunError Backing) :=
  .note ⟨.debug, "Configured data sources: " ++ toString c.dataSources.length⟩
    ((Registry.ofConfigs names c.dataSources).bind fun
      | .error e => .done (.error (.dataSources e))
      | .ok r => .done ((endpoint? names c k).map fun e => ⟨r, c.permissions, e⟩))

structure Peers where
  server : Sql.Server
  service : Http.Script
deriving DecidableEq, Repr

def Peers.answer : (e : Effect) → Registry × Peers → e.Answer × Registry × Peers
  | .execute pool q, (r, peers) =>
    let (a, r, server) := Registry.execute pool q (r, peers.server)
    (a, r, { peers with server })
  | .request q, (r, peers) =>
    let (a, service) := peers.service.answer q
    (a, r, { peers with service })

structure Report where
  exit : Nat
  stdout : String
  stderr : String
  notes : List Note
  jsonLogs : Bool
  peers : Peers
deriving DecidableEq, Repr

def Report.logLines (r : Report) : List String := r.notes.map (Log.line r.jsonLogs)

def version : String := "permctl 0.1.0"

def perform (names : Web.Idna) (p : Settings.Place) (peers : Peers) (i : Invocation) :
    Except RunError Outcome × List Note × Peers :=
  let opening := ⟨.info, version⟩ :: ProgramConfig.notes p i.config
  match ProgramConfig.load p i.config with
  | .error e => (.error (.settings e), opening, peers)
  | .ok c =>
    let d := prepare names c i.command
    let notes := opening ++ d.notes Sql.Server.answerConnect peers.server
    match d.run Sql.Server.answerConnect peers.server with
    | (.error e, server) => (.error e, notes, { peers with server })
    | (.ok b, server) =>
      let s := (b.registry, { peers with server })
      let d := b.carryOut i.command
      let (r, _, peers) := d.run Peers.answer s
      (r.mapError .operation, notes ++ d.notes Peers.answer s, peers)

def printed (json : Bool) (o : Outcome) : String :=
  (if json then o.toJson.pretty else o.text) ++ "\n"

def usageReport (peers : Peers) (e : UsageError) : Report :=
  match e with
  | .version => ⟨e.exitCode, version ++ "\n", "", [], false, peers⟩
  | .help => ⟨e.exitCode, "Usage: permctl [OPTIONS] <COMMAND>\n", "", [], false, peers⟩
  | e => ⟨e.exitCode, "", "error: " ++ e.message ++ "\n", [], false, peers⟩

def report (names : Web.Idna) (p : Settings.Place) (peers : Peers) (i : Invocation) : Report :=
  let (result, notes, peers) := perform names p peers i
  let shown := notes.filter (Log.isShown i.verbose)
  match result with
  | .ok o => ⟨0, printed i.json o, "", shown, i.jsonLogs, peers⟩
  | .error e => ⟨1, "", e.text, shown, i.jsonLogs, peers⟩

def variableFile : String := ".env"

/-- A place with the variables of the file that sets them. -/
def withVariables (p : Settings.Place) : Settings.Place :=
  match p.file? variableFile with
  | some (.bytes bs) => { p with environment := Settings.VariableFile.extend p.environment bs }
  | _ => p

def invocation (p : Settings.Place) (words : List String) : Except UsageError Invocation :=
  Invocation.parse (p.environment.get? Invocation.configVariable) words

def run (names : Web.Idna) (p : Settings.Place) (peers : Peers) (words : List String) : Report :=
  let p := withVariables p
  match invocation p words with
  | .error e => usageReport peers e
  | .ok i => report names p peers i

def files (p : Settings.Place) (words : List String) : List String :=
  let named := (invocation (withVariables p) words).toOption.bind (·.config)
  [variableFile, ProgramConfig.standardFile] ++ named.toList

end AccessControl.Program
