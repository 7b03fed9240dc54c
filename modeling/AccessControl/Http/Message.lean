import AccessControl.Dialogue
import AccessControl.Http.Status
import AccessControl.Text.Base64
import AccessControl.Web.Address

/-!
# Requests and replies
-/

namespace AccessControl.Http

open Web

structure Request where
  address : Address
  authorization : List String
deriving DecidableEq, Repr

structure Reply where
  status : Nat
  headers : List (String × String)
  body : List UInt8
deriving DecidableEq, Repr

namespace Reply

def header? (r : Reply) (name : String) : Option String :=
  (r.headers.find? fun h => Text.lower h.1 = name).map (·.2)

end Reply

/-- A request is answered by a reply, or by nothing when the connection fails or no reply comes in
time. How long that is has no part in the model. -/
abbrev Conversation : Type → Type := Dialogue Request fun _ => Option Reply

inductive TransportError where
  | unfitAddress (a : Address)
  | unfitHeader
  | sending (a : Address)
  | redirecting (a : Address)
deriving DecidableEq, Repr

namespace TransportError

def message : TransportError → String
  | .unfitAddress a => "builder error for url (" ++ a.text ++ ")"
  | .unfitHeader => "builder error"
  | .sending a => "error sending request for url (" ++ a.text ++ ")"
  | .redirecting a => "error following redirect for url (" ++ a.text ++ ")"

end TransportError

def credentials? (a : Address) : Option (List Char × Option (List Char)) := do
  let name ← Text.ofUtf8? (percentDecode a.username.toList)
  let password :=
    if a.password.isEmpty then none else Text.ofUtf8? (percentDecode a.password.toList)
  if name.isEmpty && password.isNone then none else some (name, password)

def basic (name : List Char) (password : Option (List Char)) : String :=
  "Basic " ++ String.ofList (Text.Base64.encode (Text.utf8 (name ++ ':' :: password.getD [])))

def fitsHeader (s : String) : Bool :=
  s.toList.all fun c => c == '\t' || (0x20 ≤ c.toNat && c.toNat != 0x7F)

def hasHost (a : Address) : Bool :=
  match a.host with
  | some h => !h.isEmpty
  | none => false

def isHttp (a : Address) : Bool := a.scheme == "http" || a.scheme == "https"

/-- The request for an address with an optional token. Credentials move from the address into the
first authorization. -/
def Request.make (a : Address) (token : Option String) : Except TransportError Request :=
  if !hasHost a then .error (.unfitAddress a)
  else
    let (a, basics) :=
      match credentials? a with
      | some (name, password) => (a.withoutCredentials, [basic name password])
      | none => (a, [])
    let bearers := match token with | some t => ["Bearer " ++ t] | none => []
    if !bearers.all fitsHeader then .error .unfitHeader
    else if !isHttp a then .error (.unfitAddress a)
    else .ok ⟨a, basics ++ bearers⟩

def samePlace (a b : Address) : Bool :=
  a.host == b.host && (a.port.or (defaultPort a.scheme)) == (b.port.or (defaultPort b.scheme))

def Reply.target? (names : Idna) (r : Reply) (a : Address) : Option Address :=
  if isRedirect r.status then
    match r.header? "location" with
    | some s => (a.join names s).toOption
    | none => none
  else none

/-- A request sent, and sent on for so many redirects. Another host gets no authorization. -/
def send (names : Idna) : Nat → Request → Conversation (Except TransportError Reply)
  | budget, q =>
    .ask q fun
      | none => .done (.error (.sending q.address))
      | some r =>
        match r.target? names q.address with
        | none => .done (.ok r)
        | some a =>
          match budget with
          | 0 => .done (.error (.redirecting a))
          | budget + 1 =>
            if isHttp a then
              send names budget
                ⟨a.withoutCredentials, if samePlace q.address a then q.authorization else []⟩
            else .done (.error (.redirecting a))

def redirectLimit : Nat := 10

def get (names : Idna) (a : Address) (token : Option String) :
    Conversation (Except TransportError Reply) :=
  match Request.make a token with
  | .error e => .done (.error e)
  | .ok q => send names redirectLimit q

end AccessControl.Http
