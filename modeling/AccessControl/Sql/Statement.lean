import AccessControl.Dialogue

/-!
# Statements and what they answer

A statement is a text with numbered places and the values for them. It answers with rows of one
column and a count of the rows it changed, or it fails.
-/

namespace AccessControl.Sql

inductive Param where
  | int (n : Int)
  | text (s : String)
  | texts (ss : List String)
deriving DecidableEq, Repr

structure Statement where
  text : String
  params : List Param
deriving DecidableEq, Repr

inductive Value where
  | null
  | int (n : Int)
  | bool (b : Bool)
  | text (s : String)
deriving DecidableEq, Repr

structure Table where
  rows : List Value
  affected : Nat
deriving DecidableEq, Repr

inductive Failure where
  | database (code message : String)
  | connection (text : String)
  | configuration (text : String)
  | noRows
  | nullValue
  | otherType
  | poolClosed
  | poolTimedOut
deriving DecidableEq, Repr

namespace Failure

def closed : Failure := .connection "expected to read 5 bytes, got 0 bytes at EOF"

def unreachable : Failure := .connection "Network is unreachable (os error 101)"

def message : Failure → String
  | .database _ message => "error returned from database: " ++ message
  | .connection text => "error communicating with database: " ++ text
  | .configuration text => "error with configuration: " ++ text
  | .noRows => "no rows returned by a query that expected to return at least one row"
  | .nullValue =>
    "error occurred while decoding column 0: unexpected null; try decoding as an `Option`"
  | .otherType => "error occurred while decoding column 0: mismatched types"
  | .poolClosed => "attempted to acquire a connection on a closed pool"
  | .poolTimedOut => "pool timed out while waiting for an open connection"

def hasCode (f : Failure) (code : String) : Bool :=
  match f with
  | .database c _ => c == code
  | _ => false

end Failure

abbrev Answer : Type := Except Failure Table

namespace Value

def int? : Value → Except Failure Int
  | .int n => .ok n
  | .null => .error .nullValue
  | _ => .error .otherType

def bool? : Value → Except Failure Bool
  | .bool b => .ok b
  | .null => .error .nullValue
  | _ => .error .otherType

def text? : Value → Except Failure String
  | .text s => .ok s
  | .null => .error .nullValue
  | _ => .error .otherType

end Value

namespace Table

def optional {α : Type} (read : Value → Except Failure α) (t : Table) : Except Failure (Option α) :=
  match t.rows with
  | [] => .ok none
  | v :: _ => (read v).map some

def required {α : Type} (read : Value → Except Failure α) (t : Table) : Except Failure α :=
  match t.rows with
  | [] => .error .noRows
  | v :: _ => read v

def all {α : Type} (read : Value → Except Failure α) (t : Table) : Except Failure (List α) :=
  readRows t.rows
where
  readRows : List Value → Except Failure (List α)
    | [] => .ok []
    | v :: vs =>
      match read v with
      | .error f => .error f
      | .ok a =>
        match readRows vs with
        | .error f => .error f
        | .ok as => .ok (a :: as)

end Table

end AccessControl.Sql
