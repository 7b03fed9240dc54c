import AccessControl.Permission.Basic
import AccessControl.Permission.Config
import AccessControl.Sql.Statement

/-!
# The statements of the store in tables

Permissions are rows of one table, unique by resource and action; grants are rows of another, each
naming a permission by its id, and no permission can be deleted while a grant names it. The text of
a statement is made of fixed words, the names of the two tables, and numbered places that each stand
for the value of a column; all data are parameters.
-/

namespace AccessControl.Postgres

open Sql

structure Tables where
  permissions : String
  grants : String
deriving DecidableEq, Repr

def Tables.ofConfig (c : PermissionConfig) : Tables := ⟨c.permissionsTable, c.rolePermissionsTable⟩

inductive Column where
  | resource
  | action
  | permissionId
  | roleId
deriving DecidableEq, Repr

def Column.name : Column → String
  | .resource => "resource"
  | .action => "action"
  | .permissionId => "permission_id"
  | .roleId => "role_id"

/-- A numbered place in a text, where the value of a column goes. -/
structure Place where
  column : Column
  number : Nat
deriving DecidableEq, Repr

def Place.mark (x : Place) : String := "$" ++ toString x.number

inductive Piece where
  | words (text : String)
  | permissions
  | grants
  | equals (x : Place)
  | among (x : Place)
  | row (x y : Place)
deriving DecidableEq, Repr

namespace Piece

def text (t : Tables) : Piece → String
  | words w => w
  | permissions => t.permissions
  | grants => t.grants
  | equals x => x.column.name ++ " = " ++ x.mark
  | among x => x.column.name ++ " = ANY(" ++ x.mark ++ ")"
  | row x y =>
    "(" ++ x.column.name ++ ", " ++ y.column.name ++ ") VALUES (" ++ x.mark ++ ", " ++ y.mark ++ ")"

def render (t : Tables) (ps : List Piece) : String := ps.foldr (fun x s => x.text t ++ s) ""

end Piece

inductive Command where
  | createPermissions
  | createGrants
  | createIndex
  | findPermission (p : Permission)
  | countGrants (p : Permission)
  | insertPermission (p : Permission)
  | deletePermission (p : Permission)
  | insertGrant (id : Int) (role : String)
  | deleteGrants (p : Permission)
  | deleteGrant (p : Permission) (role : String)
  | holdsAny (p : Permission) (roles : List String)
  | listRoles (id : Int)
deriving DecidableEq, Repr

namespace Command

inductive Kind where
  | createPermissions
  | createGrants
  | createIndex
  | findPermission
  | countGrants
  | insertPermission
  | deletePermission
  | insertGrant
  | deleteGrants
  | deleteGrant
  | holdsAny
  | listRoles
deriving DecidableEq, Repr

def kind : Command → Kind
  | .createPermissions => .createPermissions
  | .createGrants => .createGrants
  | .createIndex => .createIndex
  | .findPermission _ => .findPermission
  | .countGrants _ => .countGrants
  | .insertPermission _ => .insertPermission
  | .deletePermission _ => .deletePermission
  | .insertGrant _ _ => .insertGrant
  | .deleteGrants _ => .deleteGrants
  | .deleteGrant _ _ => .deleteGrant
  | .holdsAny _ _ => .holdsAny
  | .listRoles _ => .listRoles

def Kind.pieces : Kind → List Piece
  | .createPermissions => [.words "CREATE TABLE IF NOT EXISTS ", .permissions,
      .words " (\n                    id BIGSERIAL PRIMARY KEY,",
      .words "\n                    resource VARCHAR(255) NOT NULL,",
      .words "\n                    action VARCHAR(255) NOT NULL,",
      .words "\n                    created_at TIMESTAMPTZ NOT NULL DEFAULT NOW(),",
      .words "\n                    UNIQUE (resource, action)\n                )"]
  | .createGrants => [.words "CREATE TABLE IF NOT EXISTS ", .grants,
      .words " (\n                    id BIGSERIAL PRIMARY KEY,",
      .words "\n                    permission_id BIGINT NOT NULL REFERENCES ", .permissions,
      .words " (id) ON DELETE RESTRICT,",
      .words "\n                    role_id VARCHAR(255) NOT NULL,",
      .words "\n                    granted_at TIMESTAMPTZ NOT NULL DEFAULT NOW(),",
      .words "\n                    UNIQUE (permission_id, role_id)\n                )"]
  | .createIndex => [.words "CREATE INDEX IF NOT EXISTS ", .grants, .words "_role_id_idx",
      .words " ON ", .grants, .words " (role_id)"]
  | .findPermission => [.words "SELECT id FROM ", .permissions, .words " WHERE ",
      .equals ⟨.resource, 1⟩, .words " AND ", .equals ⟨.action, 2⟩]
  | .countGrants => [.words "SELECT COUNT(*) FROM ", .grants, .words " rp JOIN ", .permissions,
      .words " p ON p.id = rp.permission_id\n             WHERE p.", .equals ⟨.resource, 1⟩,
      .words " AND p.", .equals ⟨.action, 2⟩]
  | .insertPermission => [.words "INSERT INTO ", .permissions, .words " ",
      .row ⟨.resource, 1⟩ ⟨.action, 2⟩]
  | .deletePermission => [.words "DELETE FROM ", .permissions, .words " WHERE ",
      .equals ⟨.resource, 1⟩, .words " AND ", .equals ⟨.action, 2⟩]
  | .insertGrant => [.words "INSERT INTO ", .grants, .words " ",
      .row ⟨.permissionId, 1⟩ ⟨.roleId, 2⟩,
      .words "\n             ON CONFLICT (permission_id, role_id) DO NOTHING"]
  | .deleteGrants => [.words "DELETE FROM ", .grants,
      .words " WHERE permission_id IN\n                (SELECT id FROM ", .permissions,
      .words " WHERE ", .equals ⟨.resource, 1⟩, .words " AND ", .equals ⟨.action, 2⟩, .words ")"]
  | .deleteGrant => [.words "DELETE FROM ", .grants, .words " WHERE ", .equals ⟨.roleId, 3⟩,
      .words " AND permission_id IN\n                (SELECT id FROM ", .permissions,
      .words " WHERE ", .equals ⟨.resource, 1⟩, .words " AND ", .equals ⟨.action, 2⟩, .words ")"]
  | .holdsAny => [.words "SELECT EXISTS(\n                SELECT 1 FROM ", .grants,
      .words " rp JOIN ", .permissions,
      .words " p ON p.id = rp.permission_id\n                WHERE p.", .equals ⟨.resource, 1⟩,
      .words " AND p.", .equals ⟨.action, 2⟩, .words " AND rp.", .among ⟨.roleId, 3⟩,
      .words "\n            )"]
  | .listRoles => [.words "SELECT role_id FROM ", .grants, .words " WHERE ",
      .equals ⟨.permissionId, 1⟩, .words " ORDER BY role_id"]

def Kind.template (t : Tables) (k : Kind) : String := Piece.render t k.pieces

def params : Command → List Param
  | .createPermissions => []
  | .createGrants => []
  | .createIndex => []
  | .findPermission p => [.text p.resource, .text p.action]
  | .countGrants p => [.text p.resource, .text p.action]
  | .insertPermission p => [.text p.resource, .text p.action]
  | .deletePermission p => [.text p.resource, .text p.action]
  | .insertGrant id role => [.int id, .text role]
  | .deleteGrants p => [.text p.resource, .text p.action]
  | .deleteGrant p role => [.text p.resource, .text p.action, .text role]
  | .holdsAny p roles => [.text p.resource, .text p.action, .texts roles]
  | .listRoles id => [.int id]

def statement (t : Tables) (c : Command) : Statement := ⟨c.kind.template t, c.params⟩

def context : Command → String
  | .createPermissions => "Failed to create permission tables"
  | .createGrants => "Failed to create permission tables"
  | .createIndex => "Failed to create permission tables"
  | .findPermission _ => "Failed to look up permission"
  | .countGrants _ => "Failed to count grants"
  | .insertPermission _ => "Failed to insert permission"
  | .deletePermission _ => "Failed to delete permission"
  | .insertGrant _ _ => "Failed to grant permission"
  | .deleteGrants _ => "Failed to revoke permission"
  | .deleteGrant _ _ => "Failed to revoke permission from role"
  | .holdsAny _ _ => "Failed to check permission"
  | .listRoles _ => "Failed to list granted roles"

end Command

end AccessControl.Postgres
