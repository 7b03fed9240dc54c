import AccessControl.Sql.Statement
import AccessControl.Text.Quoted
import AccessControl.Text.Utf8Fault
import AccessControl.Web.Address

/-!
# Connection addresses

The address of a data source names host, port, user, password and database; its query holds
parameters, of which a few have values that must make sense. The scheme is not looked at.
-/

namespace AccessControl.ConnectString

open Text Web Sql

def formDecode (cs : List Char) : List Char :=
  ofUtf8Lossy (percentDecode (cs.map fun c => if c = '+' then ' ' else c))

def parameters (query : String) : List (List Char × List Char) :=
  ((splitOn '&' query.toList).filter (!·.isEmpty)).map fun part =>
    let (k, v) := Address.cutAt '=' part
    (formDecode k, formDecode (v.getD []))

def sslModes : List String :=
  ["disable", "allow", "prefer", "require", "verify-ca", "verify-full"]

/-- Why a text is no number below a bound. A plus sign may stand in front. -/
def numberFault? (bound : Nat) (cs : List Char) : Option String :=
  if cs.isEmpty then some "cannot parse integer from empty string"
  else
    let digits := match cs with | '+' :: r => r | cs => cs
    match natIn 10 digits with
    | none => some "invalid digit found in string"
    | some n => if n < bound then none else some "number too large to fit in target type"

def isIp (cs : List Char) : Bool := (V4.strict? cs).isSome || (V6.parse? cs).isSome

def parameterFault? (name : String) (value : List Char) : Option String :=
  match name with
  | "sslmode" | "ssl-mode" =>
    let s := String.ofList value
    if sslModes.contains (lower s) then none
    else some (Failure.message (.configuration
      ("unknown value " ++ Quoted.encode s ++ " for `ssl_mode`")))
  | "statement-cache-capacity" => numberFault? UInt64.size value
  | "port" => numberFault? UInt16.size value
  | "hostaddr" => if isIp value then none else some "invalid IP address syntax"
  | _ => none

def textFault? (part : String) : Option String :=
  (utf8Fault? (percentDecode part.toList)).map Utf8Fault.message

def fault? (names : Idna) (url : String) : Option String :=
  match Address.parse names url with
  | .error e => some e.message
  | .ok a =>
    (textFault? a.username).or <| (textFault? a.password).or <|
      (parameters (a.query.getD "")).findSome? fun p => parameterFault? (String.ofList p.1) p.2

def check (names : Idna) (url : String) : Except Failure Unit :=
  match fault? names url with
  | some text => .error (.configuration text)
  | none => .ok ()

end AccessControl.ConnectString
