import AccessControl.DataSource.Config
import AccessControl.Sql.Statement

/-!
# A server that answers from a script, and pools of connections to it

A new connection takes the next entry of the start-up script, which may refuse it or leave it
without an answer for as long as the pool waits; a refusal that will pass is tried again. A
statement that reaches the server is logged and takes the next turn. What a pool does of its own
accord, when nothing is asked of it, is left out.
-/

namespace AccessControl.Sql

inductive Turn where
  | table (t : Table)
  | fails (code message : String)
  | closes
deriving DecidableEq, Repr

inductive Greeting where
  | admits
  | refuses (code message : String)
  | silent
deriving DecidableEq, Repr

structure Server where
  reachable : Bool
  startup : List Greeting
  script : List Turn
  log : List Statement
deriving DecidableEq, Repr

namespace Server

def isTransient (code : String) : Bool := code == "53300" || code == "57P03"

/-- Entries of the start-up script after a connection, and its failure if there is none. -/
def admission : List Greeting → Option Failure × List Greeting
  | [] => (none, [])
  | .admits :: rest => (none, rest)
  | .refuses code message :: rest =>
    if isTransient code then admission rest else (some (.database code message), rest)
  | .silent :: rest => (some .poolTimedOut, rest)

def connect (s : Server) : Option Failure × Server :=
  if s.reachable then
    let (f, startup) := admission s.startup
    (f, { s with startup })
  else (some .unreachable, s)

def connectTimes : Nat → Server → Option Failure × Server
  | 0, s => (none, s)
  | n + 1, s =>
    match s.connect with
    | (none, s) => connectTimes n s
    | (some f, s) => (some f, s)

def execute (q : Statement) (s : Server) : Answer × Bool × Server :=
  let s := { s with log := s.log ++ [q] }
  match s.script with
  | [] => (.ok ⟨[], 0⟩, true, s)
  | turn :: script =>
    let s := { s with script }
    match turn with
    | .table t => (.ok t, true, s)
    | .fails code message => (.error (.database code message), true, s)
    | .closes => (.error .closed, false, s)

theorem connect_log (s : Server) : s.connect.2.log = s.log := by
  unfold connect
  split <;> rfl

theorem execute_log (q : Statement) (s : Server) : (s.execute q).2.2.log = s.log ++ [q] := by
  cases h : s.script with
  | nil => simp [execute, h]
  | cons turn script => cases turn <;> simp [execute, h]

end Server

/-- The pool of a data source, which serves one statement at a time. -/
structure Pool where
  config : DataSourceConfig
  isOpen : Bool
  size : Nat
deriving DecidableEq, Repr

namespace Pool

def name (p : Pool) : String := p.config.name

def idle (c : DataSourceConfig) : Pool := ⟨c, true, 0⟩

def started (c : DataSourceConfig) : Pool :=
  ⟨c, true, max 1 (min c.minConnections c.maxConnections)⟩

def close (p : Pool) : Pool := { p with isOpen := false, size := 0 }

/-- A pool with an open connection, or why there is none. One that may open none waits in vain. -/
def ready (p : Pool) (s : Server) : Except Failure Pool × Server :=
  if !p.isOpen then (.error .poolClosed, s)
  else if 0 < p.size then (.ok p, s)
  else if p.config.maxConnections = 0 then (.error .poolTimedOut, s)
  else
    match s.connect with
    | (none, s) => (.ok { p with size := 1 }, s)
    | (some f, s) => (.error f, s)

def execute (q : Statement) (p : Pool) (s : Server) : Answer × Pool × Server :=
  match p.ready s with
  | (.error f, s) => (.error f, p, s)
  | (.ok p, s) =>
    let (a, stays, s) := s.execute q
    (a, { p with size := if stays then p.size else p.size - 1 }, s)

theorem ready_log (p : Pool) (s : Server) : (p.ready s).2.log = s.log := by
  have h := s.connect_log
  unfold ready
  split
  · rfl
  · split
    · rfl
    · split
      · rfl
      · split <;> simp_all

theorem log_execute (q : Statement) (p : Pool) (s : Server) :
    (p.execute q s).2.2.log = s.log ∨ (p.execute q s).2.2.log = s.log ++ [q] := by
  have h := p.ready_log s
  unfold execute
  split
  · rename_i hr
    rw [hr] at h
    exact .inl h
  · rename_i hr
    rw [hr] at h
    exact .inr (by rw [Server.execute_log, ← h])

end Pool

def Server.answerConnect (c : DataSourceConfig) (s : Server) : Option Failure × Server :=
  if c.maxConnections = 0 then (some .poolTimedOut, s) else s.connectTimes (Pool.started c).size

def Pool.isHealthy (p : Pool) (s : Server) : Bool × Pool × Server :=
  match p.execute ⟨"SELECT 1", []⟩ s with
  | (.ok t, p, s) => (!t.rows.isEmpty, p, s)
  | (.error _, p, s) => (false, p, s)

end AccessControl.Sql
