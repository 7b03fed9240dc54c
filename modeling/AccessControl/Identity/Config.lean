import AccessControl.Json.Record

/-!
# Settings of the identity service
-/

namespace AccessControl

structure IdentityConfig where
  baseUrl : String
  timeoutSecs : Nat
  token : Option String
deriving DecidableEq, Repr

namespace IdentityConfig

def standard : IdentityConfig := ⟨"http://localhost:9443/api", 10, none⟩

instance : Inhabited IdentityConfig := ⟨standard⟩

def sectionKey : String := "identity"

def fields : List Json.Field := [
  .required "base_url" .text,
  .withDefault "timeout_secs" (.count UInt64.size) (.count standard.timeoutSecs),
  .withDefault "token" .optionalText (.optionalText standard.token)]

def ofScalars : List Json.Scalar → Option IdentityConfig
  | [.text url, .count timeout, .optionalText token] => some ⟨url, timeout, token⟩
  | _ => none

def ofJson (v : Json) : Except Json.Fault IdentityConfig := Json.decodeAs fields ofScalars v

def toJson (c : IdentityConfig) : Json :=
  .obj [("base_url", .str c.baseUrl), ("timeout_secs", .int c.timeoutSecs),
    ("token", match c.token with | some t => .str t | none => .null)]

end IdentityConfig

end AccessControl
