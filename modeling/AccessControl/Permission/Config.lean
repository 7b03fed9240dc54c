import AccessControl.Json.Record
import AccessControl.Settings.Error
import AccessControl.Text.Blank
import AccessControl.Text.Quoted

/-!
# Settings of the permission store

The data source that holds the permissions, whether its tables are created when it is opened, and
the names of the two tables. Valid settings name plain identifiers, so that a table name can stand
in a statement as it is.
-/

namespace AccessControl

structure PermissionConfig where
  datasource : String
  createTables : Bool
  permissionsTable : String
  rolePermissionsTable : String
deriving DecidableEq, Repr

namespace PermissionConfig

def standard : PermissionConfig := ⟨"PERMISSIONS_DB", true, "permissions", "role_permissions"⟩

instance : Inhabited PermissionConfig := ⟨standard⟩

def sectionKey : String := "permissions"

def fields : List Json.Field := [
  .withDefault "datasource" .text (.text standard.datasource),
  .withDefault "create_tables" .flag (.flag standard.createTables),
  .withDefault "permissions_table" .text (.text standard.permissionsTable),
  .withDefault "role_permissions_table" .text (.text standard.rolePermissionsTable)]

def ofScalars : List Json.Scalar → Option PermissionConfig
  | [.text d, .flag c, .text p, .text rp] => some ⟨d, c, p, rp⟩
  | _ => none

def parse (s : String) : Except Json.Fault PermissionConfig := Json.parseAs fields ofScalars s

def toJson (c : PermissionConfig) : Json :=
  .obj [("datasource", .str c.datasource), ("create_tables", .bool c.createTables),
    ("permissions_table", .str c.permissionsTable),
    ("role_permissions_table", .str c.rolePermissionsTable)]

/-- The longest identifier, in bytes, that a server keeps whole. -/
def identifierLimit : Nat := 63

/-- An ASCII letter or underscore, then letters, digits and underscores, within the limit. -/
def isIdentifier (s : String) : Bool :=
  match s.toList with
  | [] => false
  | c :: cs =>
    (Text.isLetter c || c == '_') && Text.utf8Length (c :: cs) ≤ identifierLimit &&
      cs.all Text.isWordChar

def invalidTable (field value : String) : SettingsError :=
  .validation
    ("permissions." ++ field ++ " is not a valid table name: " ++ Text.Quoted.encode value)

def fault? (c : PermissionConfig) : Option SettingsError :=
  if (Text.trim c.datasource).isEmpty then
    some (.validation "permissions.datasource must not be empty")
  else if !isIdentifier c.permissionsTable then
    some (invalidTable "permissions_table" c.permissionsTable)
  else if !isIdentifier c.rolePermissionsTable then
    some (invalidTable "role_permissions_table" c.rolePermissionsTable)
  else if c.permissionsTable = c.rolePermissionsTable then
    some (.validation "permissions_table and role_permissions_table must differ")
  else none

def validate (c : PermissionConfig) : Except SettingsError PermissionConfig :=
  match c.fault? with
  | some e => .error e
  | none => .ok c

theorem validate_eq_ok_iff {c d : PermissionConfig} :
    c.validate = .ok d ↔ c.fault? = none ∧ c = d := by
  unfold validate
  cases c.fault? <;> simp

end PermissionConfig

end AccessControl
