import AccessControl.Json.Record

/-!
# Settings of a data source
-/

namespace AccessControl

structure DataSourceConfig where
  name : String
  url : String
  maxConnections : Nat
  minConnections : Nat
  acquireTimeoutSecs : Nat
  idleTimeoutSecs : Nat
  maxLifetimeSecs : Nat
  isLazy : Bool
deriving DecidableEq, Repr, Inhabited

namespace DataSourceConfig

def new (name url : String) (isLazy : Bool) : DataSourceConfig :=
  ⟨name, url, 10, 0, 30, 600, 1800, isLazy⟩

def sectionKey : String := "datasources"

def fields : List Json.Field :=
  let c := new "" "" false
  [.required "name" .text,
    .required "url" .text,
    .withDefault "max_connections" (.count UInt32.size) (.count c.maxConnections),
    .withDefault "min_connections" (.count UInt32.size) (.count c.minConnections),
    .withDefault "acquire_timeout_secs" (.count UInt64.size) (.count c.acquireTimeoutSecs),
    .withDefault "idle_timeout_secs" (.count UInt64.size) (.count c.idleTimeoutSecs),
    .withDefault "max_lifetime_secs" (.count UInt64.size) (.count c.maxLifetimeSecs),
    .withDefault "lazy" .flag (.flag c.isLazy)]

def ofScalars : List Json.Scalar → Option DataSourceConfig
  | [.text name, .text url, .count maxc, .count minc, .count acquire, .count idle, .count life,
      .flag l] => some ⟨name, url, maxc, minc, acquire, idle, life, l⟩
  | _ => none

def ofJson (v : Json) : Except Json.Fault DataSourceConfig := Json.decodeAs fields ofScalars v

def toJson (c : DataSourceConfig) : Json :=
  .obj [("name", .str c.name), ("url", .str c.url), ("max_connections", .int c.maxConnections),
    ("min_connections", .int c.minConnections), ("acquire_timeout_secs", .int c.acquireTimeoutSecs),
    ("idle_timeout_secs", .int c.idleTimeoutSecs), ("max_lifetime_secs", .int c.maxLifetimeSecs),
    ("lazy", .bool c.isLazy)]

end DataSourceConfig

end AccessControl
