import AccessControl.Proofs.Postgres.Rows
import AccessControl.Proofs.Sql.Query

/-!
# What a text means for the tables

A statement is read from its text, and what it comes to follows from the query that it is, the
values of its places and the tables as the texts of the schema declare them. Columns that the rows
do not keep here, such as times, cannot be spoken of, and nothing is said of a statement that is not
read, or whose columns and values do not fit together.
-/

namespace AccessControl.Postgres

open Sql

abbrev Record : Type := List (String × Value)

abbrev Scope : Type := List (String × Record)

/-- What is known of a table: the name that it goes by, and its columns. -/
structure Sight where
  name : String
  declared : List ColumnDeclaration
  kept : List String
deriving DecidableEq, Repr

def PermissionRow.record (r : PermissionRow) : Record :=
  [("id", .int r.id), ("resource", .text r.permission.resource),
    ("action", .text r.permission.action)]

def GrantRow.record (g : GrantRow) : Record :=
  [("permission_id", .int g.permissionId), ("role_id", .text g.role)]

namespace Tables

def declarations (t : Tables) : List Declaration :=
  [Command.Kind.createPermissions, .createGrants].filterMap fun k =>
    match Query.read? (k.template t) with
    | some (.createTable d) => some d
    | _ => none

def declaration? (t : Tables) (name : String) : Option Declaration :=
  t.declarations.find? fun d => d.table = name

def kept (t : Tables) (name : String) : List String :=
  if name = relation t.permissions then ["id", "resource", "action"]
  else if name = relation t.grants then ["permission_id", "role_id"]
  else []

def sight? (t : Tables) (x : TableRef) : Option Sight :=
  (t.declaration? x.table).map fun d => ⟨x.name, d.columns, t.kept x.table⟩

end Tables

def boundTo? (ps : List Param) (place : String) : Option Param :=
  match Text.natIn 10 place.toList with
  | some (n + 1) => ps[n]?
  | _ => none

def valueOf? : Param → Option Value
  | .int n => some (.int n)
  | .text s => some (.text s)
  | .texts _ => none

def holds : ColumnType → Value → Bool
  | .bigint, .int _ => true
  | .bigserial, .int _ => true
  | .varchar, .text _ => true
  | _, _ => false

def comparable : ColumnType → ColumnType → Bool
  | .varchar, type => type == .varchar
  | .timestamptz, type => type == .timestamptz
  | _, type => type == .bigint || type == .bigserial

section

variable (t : Tables) (ps : List Param) (r : Rows) (ss : List Sight) (sc : Scope)

/-- The type of a column, which has to be of one table alone and kept by its rows. -/
def columnType? (c : ColumnRef) : Option ColumnType :=
  match ss.filter fun s => c.table?.all (· == s.name) && s.declared.any (·.name == c.name) with
  | [s] =>
    if s.kept.contains c.name then (s.declared.find? (·.name == c.name)).map (·.type) else none
  | _ => none

def conditionFits : Condition → Bool
  | .equals c n =>
    (columnType? ss c).any fun type => ((boundTo? ps n).bind valueOf?).any (holds type)
  | .among c n =>
    columnType? ss c == some .varchar && (boundTo? ps n).any fun
      | .texts _ => true
      | _ => false
  | .same c d => (columnType? ss c).any fun type => (columnType? ss d).any (comparable type)

def filterFits : Filter → Bool
  | .meets c => conditionFits ps ss c
  | .within c d x cs =>
    (t.sight? x).any fun s => cs.all (conditionFits ps [s]) &&
      (columnType? ss c).any fun type => (columnType? [s] d).any (comparable type)

def sights? (xs : List TableRef) (fs : List Filter) : Option (List Sight) :=
  (xs.mapM t.sight?).filter fun ss => fs.all (filterFits t ps ss)

def columnValue (c : ColumnRef) : Value :=
  (sc.findSome? fun x => if c.table?.all (· == x.1) then x.2.lookup c.name else none).getD .null

def conditionHolds : Condition → Bool
  | .equals c n => (boundTo? ps n).bind valueOf? == some (columnValue sc c)
  | .among c n =>
    match boundTo? ps n, columnValue sc c with
    | some (.texts xs), .text x => xs.contains x
    | _, _ => false
  | .same c d => columnValue sc c == columnValue sc d

def Rows.records (name : String) : List Record :=
  if name = relation t.permissions then r.permissions.map (·.record)
  else if name = relation t.grants then r.grants.map (·.record)
  else []

def filterHolds : Filter → Bool
  | .meets c => conditionHolds ps sc c
  | .within c d x cs => (r.records t x.table).any fun y =>
      cs.all (conditionHolds ps [(x.name, y)]) &&
        columnValue [(x.name, y)] d == columnValue sc c

def Rows.scopes : List TableRef → List Scope
  | [] => [[]]
  | x :: xs =>
    (r.records t x.table).flatMap fun y => (Rows.scopes xs).map fun sc => (x.name, y) :: sc

def Rows.chosen (xs : List TableRef) (fs : List Filter) : List Scope :=
  (r.scopes t xs).filter fun sc => fs.all (filterHolds t ps r sc)

/-- Whether a row has, wherever a column refers to another table, a value that is there. -/
def Rows.refers (d : Declaration) (x : Record) : Bool :=
  d.columns.all fun c => c.target?.all fun (u, k) =>
    (r.records t u).any fun y => y.lookup k == x.lookup c.name

/-- Whether a row of a table is referred to by a row of some table. -/
def Rows.referred (table : String) (y : Record) : Bool :=
  t.declarations.any fun d => d.columns.any fun c => c.target?.any fun (u, k) =>
    u == table && (r.records t d.table).any fun x => y.lookup k == x.lookup c.name

def agree (columns : List String) (x y : Record) : Bool :=
  columns.all fun c => x.lookup c == y.lookup c

def Rows.added? (table : String) : Record → Option Outcome
  | [("resource", .text resource), ("action", .text action)] =>
    if table = relation t.permissions then some (.adds ⟨resource, action⟩) else none
  | [("permission_id", .int id), ("role_id", .text role)] =>
    if table = relation t.grants then
      some (.leaves 1 { r with grants := r.grants ++ [⟨id, role⟩] })
    else none
  | _ => none

def Rows.inserted? (d : Declaration) (x : Record) (sparing : Option (List String)) :
    Option Outcome :=
  let alike (columns : List String) := (r.records t d.table).any (agree columns x)
  if !(x.all fun y => d.columns.any fun c => c.name == y.1 && holds c.type y.2) then none
  else if !(sparing.all d.unique.contains) then none
  else if sparing.any alike then some (.leaves 0 r)
  else if d.unique.any alike then some (.violates uniqueViolation)
  else if !(r.refers t d x) then some (.violates foreignKeyViolation)
  else r.added? t d.table x

def Rows.without (table : String) (gone : Record → Bool) : Rows :=
  if table = relation t.permissions then
    { r with permissions := r.permissions.filter fun y => !gone y.record }
  else { r with grants := r.grants.filter fun y => !gone y.record }

def Rows.deleted (x : TableRef) (fs : List Filter) : Outcome :=
  let gone (y : Record) := fs.all (filterHolds t ps r [(x.name, y)])
  let rows := (r.records t x.table).filter gone
  if rows.any (r.referred t x.table) then .violates foreignKeyViolation
  else .leaves rows.length (r.without t x.table gone)

def Rows.comesTo? : Query → Option Outcome
  | .createTable d => (t.declaration? d.table).map fun _ => .leaves 0 r
  | .createIndex _ table _ => (t.declaration? table).map fun _ => .leaves 0 r
  | .insert table columns places sparing =>
    match t.declaration? table, places.mapM fun n => (boundTo? ps n).bind valueOf? with
    | some d, some vs => r.inserted? t d (columns.zip vs) sparing
    | _, _ => none
  | .delete x fs => (sights? t ps [x] fs).map fun _ => r.deleted t ps x fs
  | .count xs fs =>
    (sights? t ps xs fs).map fun _ => .gives [.int (r.chosen t ps xs fs).length]
  | .present xs fs =>
    (sights? t ps xs fs).map fun _ => .gives [.bool !(r.chosen t ps xs fs).isEmpty]
  | .select c xs fs none =>
    ((sights? t ps xs fs).bind fun ss => columnType? ss c).map fun _ =>
      .gives ((r.chosen t ps xs fs).map (columnValue · c))
  | .select c xs fs (some d) =>
    match (sights? t ps xs fs).bind fun ss => columnType? ss c with
    | some .varchar =>
      if d = c then
        some (.lists ((r.chosen t ps xs fs).filterMap fun sc => (columnValue sc c).text?.toOption))
      else none
    | _ => none

def Rows.meaning? (q : Statement) : Option Outcome :=
  (Query.read? q.text).bind (r.comesTo? t q.params)

/-- What a server may answer to a statement, and the tables after it. -/
def Rows.Means (q : Statement) (a : Answer) (r' : Rows) : Prop :=
  ∃ o, r.meaning? t q = some o ∧ o.Allows r a r'

end

/-- A server that does with each of some statements what its text means for the tables that the
server holds. -/
def Serves {σ : Type} (P : Statement → Prop) (t : Tables) (server : Statement → σ → Answer × σ)
    (view : σ → Rows) : Prop :=
  ∀ q s o, P q → (view s).meaning? t q = some o →
    o.Allows (view s) (server q s).1 (view (server q s).2)

end AccessControl.Postgres
