import AccessControl.Text.Blank
import AccessControl.Web.Host

/-!
# Addresses

An address of the web, read by the rules that browsers follow and written in its normal form. A path
below a host is a list of segments, in which `.` and `..` have been resolved.
-/

namespace AccessControl.Web

open Text

inductive Path where
  | bare (text : String)
  | segments (ss : List String)
deriving DecidableEq, Repr

structure Address where
  scheme : String
  username : String
  password : String
  host : Option Host
  port : Option Nat
  path : Path
  query : Option String
  fragment : Option String
deriving DecidableEq, Repr

inductive SchemeKind where
  | web
  | file
  | other
deriving DecidableEq, Repr

namespace SchemeKind

def ofScheme (s : String) : SchemeKind :=
  if ["http", "https", "ws", "wss", "ftp"].contains s then .web
  else if s = "file" then .file
  else .other

def isSpecial (k : SchemeKind) : Bool := k != .other

def isSeparator (k : SchemeKind) (c : Char) : Bool := c == '/' || (k.isSpecial && c == '\\')

end SchemeKind

def defaultPort (scheme : String) : Option Nat :=
  match scheme with
  | "http" | "ws" => some 80
  | "https" | "wss" => some 443
  | "ftp" => some 21
  | _ => none

namespace Path

def isSingleDot (cs : List Char) : Bool :=
  [".", "%2e"].contains (lower (String.ofList cs))

def isDoubleDot (cs : List Char) : Bool :=
  ["..", ".%2e", "%2e.", "%2e%2e"].contains (lower (String.ofList cs))

def isDrive (cs : List Char) : Bool :=
  match cs with
  | [c, d] => isLetter c && (d == ':' || d == '|')
  | _ => false

def isDriveText (s : String) : Bool :=
  match s.toList with
  | [c, ':'] => isLetter c
  | _ => false

/-- Segments without the last; the drive that starts the path of a file stays. -/
def shorten (k : SchemeKind) (ss : List String) : List String :=
  match k, ss with
  | .file, [d] => if isDriveText d then [d] else []
  | _, ss => ss.dropLast

def resolve (k : SchemeKind) : List String → List (List Char) → List String
  | done, [] => done
  | done, s :: rest =>
    if isDoubleDot s then
      let done := shorten k done
      resolve k (if rest.isEmpty then done ++ [""] else done) rest
    else if isSingleDot s then
      resolve k (if rest.isEmpty then done ++ [""] else done) rest
    else
      let s := if k == .file && done.isEmpty && isDrive s then s.take 1 ++ [':'] else s
      resolve k (done ++ [String.ofList (percentEncode Part.path s)]) rest

def withoutLeadingGaps (ss : List String) : List String :=
  match ss.dropWhile String.isEmpty with
  | [] => [""]
  | rest => rest

def ofRaw (k : SchemeKind) (start : List String) (raw : List (List Char)) : List String :=
  let ss := resolve k start raw
  if k == .file then withoutLeadingGaps ss else ss

def splitSegments (k : SchemeKind) (cs : List Char) : List (List Char) :=
  splitOn '/' (cs.map fun c => if k.isSeparator c then '/' else c)

def ofText (k : SchemeKind) (cs : List Char) : List String :=
  match cs with
  | [] => if k.isSpecial then [""] else []
  | _ :: r => ofRaw k [] (splitSegments k r)

def text : Path → String
  | .bare s => s
  | .segments ss => String.join (ss.map ("/" ++ ·))

end Path

namespace Address

def cutAt (c : Char) (cs : List Char) : List Char × Option (List Char) :=
  match cs.dropWhile (· != c) with
  | [] => (cs, none)
  | _ :: r => (cs.takeWhile (· != c), some r)

def clean (s : String) : List Char :=
  (trimChars (fun c => c.toNat ≤ 0x20) s.toList).filter fun c => c != '\t' && c != '\n' && c != '\r'

def isSchemeChar (c : Char) : Bool :=
  isLetter c || isDigit c || c == '+' || c == '-' || c == '.'

def scheme? (cs : List Char) : Option (String × List Char) :=
  match cs with
  | [] => none
  | c :: _ =>
    let name := cs.takeWhile isSchemeChar
    match cs.dropWhile isSchemeChar with
    | ':' :: r => if isLetter c then some (lower (String.ofList name), r) else none
    | _ => none

structure Authority where
  username : String
  password : String
  host : Host
  port : Option Nat

def splitCredentials (cs : List Char) : Option (List Char) × List Char :=
  let host := (cs.reverse.takeWhile (· != '@')).reverse
  if host.length = cs.length then (none, cs)
  else (some (cs.take (cs.length - host.length - 1)), host)

/-- A host, and the text after the colon that ends it; a colon within brackets ends nothing. -/
def splitPort : Bool → List Char → List Char × Option (List Char)
  | _, [] => ([], none)
  | inside, c :: r =>
    if c == ':' && !inside then ([], some r)
    else
      let inside := if c == '[' then true else if c == ']' then false else inside
      let (host, port) := splitPort inside r
      (c :: host, port)

def port? (scheme : String) (cs : List Char) : Except AddressError (Option Nat) :=
  match cs with
  | [] => .ok none
  | cs =>
    match natIn 10 cs with
    | some n =>
      if 65535 < n then .error .port else .ok (if defaultPort scheme = some n then none else some n)
    | none => .error .port

def authority (names : Idna) (scheme : String) (k : SchemeKind) (more : Bool) (cs : List Char) :
    Except AddressError Authority :=
  let (credentials, rest) := splitCredentials cs
  let (user, password) := cutAt ':' (credentials.getD [])
  let username := String.ofList (percentEncode Part.userinfo user)
  let password := String.ofList (percentEncode Part.userinfo (password.getD []))
  let (hostText, portText) := splitPort false rest
  if credentials = some [] && rest.isEmpty && more then .error .emptyHost
  else if hostText.isEmpty && (k.isSpecial || portText.isSome) then .error .emptyHost
  else
    match (if k.isSpecial then Host.special names hostText else Host.plain hostText) with
    | .error e => .error e
    | .ok host =>
      match port? scheme (portText.getD []) with
      | .error e => .error e
      | .ok port =>
        if host.isEmpty && !(username.isEmpty && password.isEmpty) then .error .emptyHost
        else .ok ⟨username, password, host, port⟩

/-- The host and path of a file. A drive is no host, and the local host goes without saying. -/
def fileBody (names : Idna) (cs : List Char) : Except AddressError (Host × List String) :=
  let isSep := SchemeKind.isSeparator .file
  match cs with
  | a :: b :: r =>
    if isSep a && isSep b then
      let hostText := r.takeWhile (!isSep ·)
      let path := r.dropWhile (!isSep ·)
      if Path.isDrive hostText then .ok (.name "", Path.ofText .file ('/' :: r))
      else if hostText.isEmpty then .ok (.name "", Path.ofText .file path)
      else
        match Host.special names hostText with
        | .error e => .error e
        | .ok host =>
          .ok (if host = .name "localhost" then .name "" else host, Path.ofText .file path)
    else if isSep a then .ok (.name "", Path.ofText .file cs)
    else .ok (.name "", Path.ofText .file ('/' :: cs))
  | [a] => .ok (.name "", Path.ofText .file (if isSep a then [a] else ['/', a]))
  | [] => .ok (.name "", [""])

def encodeQuery (k : SchemeKind) (cs : List Char) : String :=
  String.ofList (percentEncode (if k.isSpecial then Part.specialQuery else Part.query) cs)

def encodeFragment (cs : List Char) : String := String.ofList (percentEncode Part.fragment cs)

def underAuthority (names : Idna) (scheme : String) (k : SchemeKind) (more : Bool)
    (query fragment : Option String) (cs : List Char) : Except AddressError Address :=
  let isSep := k.isSeparator
  let path := cs.dropWhile (!isSep ·)
  match authority names scheme k (more || !path.isEmpty) (cs.takeWhile (!isSep ·)) with
  | .error e => .error e
  | .ok a =>
    .ok ⟨scheme, a.username, a.password, some a.host, a.port, .segments (Path.ofText k path), query,
      fragment⟩

def ofBody (names : Idna) (scheme : String) (cs : List Char) : Except AddressError Address :=
  let k := SchemeKind.ofScheme scheme
  let (cs, fragmentText) := cutAt '#' cs
  let (body, queryText) := cutAt '?' cs
  let query := queryText.map (encodeQuery k)
  let fragment := fragmentText.map encodeFragment
  let more := queryText.isSome || fragmentText.isSome
  match k with
  | .web => underAuthority names scheme k more query fragment (body.dropWhile k.isSeparator)
  | .file =>
    match fileBody names body with
    | .error e => .error e
    | .ok (host, path) => .ok ⟨scheme, "", "", some host, none, .segments path, query, fragment⟩
  | .other =>
    match body with
    | '/' :: '/' :: r => underAuthority names scheme k more query fragment r
    | '/' :: _ =>
      .ok ⟨scheme, "", "", none, none, .segments (Path.ofText k body), query, fragment⟩
    | _ =>
      .ok ⟨scheme, "", "", none, none, .bare (String.ofList (percentEncode isControl body)), query,
        fragment⟩

def parse (names : Idna) (s : String) : Except AddressError Address :=
  match scheme? (clean s) with
  | some (scheme, body) => ofBody names scheme body
  | none => .error .relative

def credentialsText (a : Address) : String :=
  if a.username.isEmpty && a.password.isEmpty then ""
  else a.username ++ (if a.password.isEmpty then "" else ":" ++ a.password) ++ "@"

def portText (a : Address) : String :=
  match a.port with
  | some n => ":" ++ toString n
  | none => ""

def originText (a : Address) : String :=
  a.scheme ++ ":" ++
    match a.host, a.path with
    | some h, _ => "//" ++ a.credentialsText ++ h.text ++ a.portText
    | none, .segments ("" :: _ :: _) => "/."
    | none, _ => ""

def optionalText (mark : String) : Option String → String
  | some s => mark ++ s
  | none => ""

def text (a : Address) : String :=
  a.originText ++ a.path.text ++ optionalText "?" a.query ++ optionalText "#" a.fragment

def withoutCredentials (a : Address) : Address := { a with username := "", password := "" }

def withoutFragment (a : Address) : Address := { a with fragment := none }

/-- An address named by a text as it stands in a document at another address. -/
def join (names : Idna) (base : Address) (s : String) : Except AddressError Address :=
  let cs := clean s
  let k := SchemeKind.ofScheme base.scheme
  match scheme? cs with
  | some (scheme, body) =>
    if scheme = base.scheme && k == .web && !(body.take 2).all k.isSeparator then
      relative body
    else ofBody names scheme body
  | none => relative cs
where
  relative (cs : List Char) : Except AddressError Address :=
    let k := SchemeKind.ofScheme base.scheme
    let isSep := k.isSeparator
    let (whole, fragmentText) := cutAt '#' cs
    let (body, queryText) := cutAt '?' whole
    let fragment := fragmentText.map encodeFragment
    let query := queryText.map (encodeQuery k)
    match base.path, body with
    | .bare _, [] =>
      if queryText.isNone && fragmentText.isSome then .ok { base with fragment }
      else .error .relative
    | .bare _, _ => .error .relative
    | .segments _, [] =>
      .ok { base with query := if queryText.isSome then query else base.query, fragment }
    | .segments ss, a :: r =>
      if isSep a then
        match r with
        | b :: _ =>
          if isSep b then ofBody names base.scheme (cs.map fun c => if isSep c then '/' else c)
          else .ok { base with path := .segments (Path.ofText k body), query, fragment }
        | [] => .ok { base with path := .segments (Path.ofText k body), query, fragment }
      else
        .ok { base with
          path := .segments (Path.ofRaw k (Path.shorten k ss) (Path.splitSegments k body))
          query, fragment }

end Address

end AccessControl.Web
