import AccessControl.DataSource.Config
import AccessControl.DataSource.ConnectString
import AccessControl.DataSource.Error
import AccessControl.Sql.Server

/-!
# The registry of data sources

Pools by name. A name is taken once; removing it makes it free again.
-/

namespace AccessControl

open Sql Web

abbrev Connecting : Type → Type := Dialogue DataSourceConfig fun _ => Option Failure

/-- The pool of a data source. One that is lazy is not connected yet. -/
def DataSourceConfig.connect (names : Idna) (c : DataSourceConfig) :
    Connecting (Except DatabaseError Pool) :=
  match ConnectString.check names c.url with
  | .error f => .done (.error (.connectionFailed c.name f.message))
  | .ok _ =>
    if c.isLazy then .done (.ok (.idle c))
    else
      .ask c fun
        | some f => .done (.error (.connectionFailed c.name f.message))
        | none => .done (.ok (.started c))

structure Registry where
  pools : List (String × Pool)
deriving DecidableEq, Repr, Inhabited

namespace Registry

def empty : Registry := ⟨[]⟩

def lookup (name : String) : List (String × Pool) → Option Pool
  | [] => none
  | (n, p) :: rest => if n = name then some p else lookup name rest

def pool? (r : Registry) (name : String) : Option Pool := lookup name r.pools

def get (r : Registry) (name : String) : Except DatabaseError Pool :=
  match r.pool? name with
  | some p => .ok p
  | none => .error (.notFound name)

def register (r : Registry) (p : Pool) : Except DatabaseError Registry :=
  match r.pool? p.name with
  | some _ => .error (.duplicate p.name)
  | none => .ok ⟨(p.name, p) :: r.pools⟩

def remove (r : Registry) (name : String) : Registry := ⟨r.pools.filter fun e => e.1 ≠ name⟩

def names (r : Registry) : List String := (r.pools.map (·.1)).mergeSort (· ≤ ·)

def update (r : Registry) (name : String) (p : Pool) : Registry :=
  ⟨r.pools.map fun e => if e.1 = name then (e.1, p) else e⟩

def execute (name : String) (q : Statement) : Registry × Server → Answer × Registry × Server
  | (r, s) =>
    match r.pool? name with
    | none => (.error .poolClosed, r, s)
    | some p =>
      let (a, p, s) := p.execute q s
      (a, r.update name p, s)

def closeAll (r : Registry) : Registry := ⟨r.pools.map fun e => (e.1, e.2.close)⟩

/-- Data sources connected and registered one after another, up to the first failure. -/
def addAll (names : Idna) (r : Registry) :
    List DataSourceConfig → Connecting (Except DatabaseError Registry)
  | [] => .done (.ok r)
  | c :: cs =>
    (c.connect names).bind fun
      | .error e => .done (.error e)
      | .ok p =>
        match r.register p with
        | .error e => .done (.error e)
        | .ok r => r.addAll names cs

def ofConfigs (names : Idna) (cs : List DataSourceConfig) :
    Connecting (Except DatabaseError Registry) :=
  empty.addAll names cs

theorem pool?_register {r r' : Registry} {other : String} {p : Pool} (h : r.register p = .ok r') :
    r'.pool? other = if p.name = other then some p else r.pool? other := by
  unfold register at h
  split at h
  · simp at h
  · obtain rfl := Except.ok.inj h
    rfl

def debugText (p : Pool) : String :=
  "DatabasePool \x7b name: " ++ Text.Quoted.encode p.name ++ ", size: " ++ toString p.size ++
    " \x7d"

end Registry

end AccessControl
