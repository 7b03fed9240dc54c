import AccessControl.Proofs.Postgres.Reading

/-!
# What the statements of the store come to

The text of each command means, for the tables, what the command is said to come to. A statement is
followed through its parts: the columns that it speaks of are there and fit its values, its filters
single out the rows of a permission or of a role, and what it inserts or deletes is weighed against
the keys that the texts of the schema declare.
-/

namespace AccessControl.Postgres

open Sql

namespace Command

variable {t : Tables} {r : Rows} {p : Permission} {ps : List Param} {fs : List Filter}
  {roles : List String} {id : Int} {role : String}

def holding : Filter := .meets (.among ⟨some "rp", "role_id"⟩ "3")

theorem declarations_eq (ht : t.Apart) : t.declarations =
    [permissionsTable (relation t.permissions),
      grantsTable (relation t.permissions) (relation t.grants)] := by
  simp only [Tables.declarations, List.filterMap_cons, read?_template ht.permissions ht.grants,
    Kind.query, List.filterMap_nil]

theorem declaration?_permissions (ht : t.Apart) : t.declaration? (relation t.permissions) =
    some (permissionsTable (relation t.permissions)) := by
  simp [Tables.declaration?, declarations_eq ht, permissionsTable]

theorem declaration?_grants (ht : t.Apart) : t.declaration? (relation t.grants) =
    some (grantsTable (relation t.permissions) (relation t.grants)) := by
  simp [Tables.declaration?, declarations_eq ht, permissionsTable, grantsTable, ht.differ]

def permissionsSight (p name : String) : Sight :=
  ⟨name, (permissionsTable p).columns, ["id", "resource", "action"]⟩

def grantsSight (p g name : String) : Sight :=
  ⟨name, (grantsTable p g).columns, ["permission_id", "role_id"]⟩

theorem sight?_permissions (ht : t.Apart) (name : String) :
    t.sight? ⟨relation t.permissions, name⟩ =
      some (permissionsSight (relation t.permissions) name) := by
  simp only [Tables.sight?, declaration?_permissions ht, Tables.kept, Option.map_some, if_true]
  rfl

theorem sight?_grants (ht : t.Apart) (name : String) :
    t.sight? ⟨relation t.grants, name⟩ =
      some (grantsSight (relation t.permissions) (relation t.grants) name) := by
  simp only [Tables.sight?, declaration?_grants ht, Tables.kept, Option.map_some, if_true,
    if_neg ht.differ.symm]
  rfl

theorem sights?_eq {xs : List TableRef} {ss : List Sight} (hs : xs.mapM t.sight? = some ss)
    (hf : fs.all (filterFits t ps ss) = true) : sights? t ps xs fs = some ss := by
  rw [sights?, hs, Option.filter_some, if_pos hf]

theorem records_permissions : r.records t (relation t.permissions) =
    r.permissions.map (·.record) := by
  rw [Rows.records, if_pos rfl]

theorem records_grants (ht : t.Apart) : r.records t (relation t.grants) =
    r.grants.map (·.record) := by
  rw [Rows.records, if_neg ht.differ.symm, if_pos rfl]

theorem scopes_single (x : TableRef) :
    r.scopes t [x] = (r.records t x.table).map fun y => [(x.name, y)] :=
  List.map_eq_flatMap.symm

theorem chosen_permissions {name : String} {test : PermissionRow → Bool}
    (h : ∀ x, fs.all (filterHolds t ps r [(name, x.record)]) = test x) :
    r.chosen t ps [⟨relation t.permissions, name⟩] fs =
      (r.permissions.filter test).map fun x => [(name, x.record)] := by
  rw [Rows.chosen, scopes_single, records_permissions, List.map_map, List.filter_map]
  exact congrArg _ (List.filter_congr fun x _ => h x)

theorem chosen_grants (ht : t.Apart) {name : String} {test : GrantRow → Bool}
    (h : ∀ g, fs.all (filterHolds t ps r [(name, g.record)]) = test g) :
    r.chosen t ps [⟨relation t.grants, name⟩] fs =
      (r.grants.filter test).map fun g => [(name, g.record)] := by
  rw [Rows.chosen, scopes_single, records_grants ht, List.map_map, List.filter_map]
  exact congrArg _ (List.filter_congr fun g _ => h g)

theorem chosen_joined (ht : t.Apart) {test : GrantRow → PermissionRow → Bool}
    (h : ∀ g x, fs.all (filterHolds t ps r [("rp", g.record), ("p", x.record)]) = test g x) :
    r.chosen t ps [⟨relation t.grants, "rp"⟩, ⟨relation t.permissions, "p"⟩] fs =
      r.grants.flatMap fun g => (r.permissions.filter (test g)).map fun x =>
        [("rp", g.record), ("p", x.record)] := by
  have hscopes : r.scopes t [⟨relation t.grants, "rp"⟩, ⟨relation t.permissions, "p"⟩] =
      r.grants.flatMap fun g => r.permissions.map fun x =>
        [("rp", g.record), ("p", x.record)] := by
    rw [Rows.scopes, scopes_single, records_grants ht, records_permissions, List.flatMap_map,
      List.map_map]
    simp only [List.map_map]
    rfl
  rw [Rows.chosen, hscopes, List.filter_flatMap]
  refine List.flatMap_congr fun g _ => ?_
  rw [List.filter_map]
  exact congrArg _ (List.filter_congr fun x _ => h g x)

theorem permission_beq (x : PermissionRow) (p : Permission) :
    ((some (Value.text p.resource) == some (.text x.permission.resource)) &&
      ((some (Value.text p.action) == some (.text x.permission.action)) && true)) =
      decide (x.permission = p) := by
  obtain ⟨i, a, b⟩ := x
  obtain ⟨c, d⟩ := p
  rw [Bool.eq_iff_iff]
  simp only [Bool.and_true, Bool.and_eq_true, beq_iff_eq, Option.some.injEq, Value.text.injEq,
    decide_eq_true_eq, Permission.mk.injEq]
  exact and_congr eq_comm eq_comm

theorem holds_permission (extra : List Param) (name : String) (x : PermissionRow) :
    [compared .resource "1", compared .action "2"].all (filterHolds t
      (.text p.resource :: .text p.action :: extra) r [(name, x.record)]) =
      decide (x.permission = p) :=
  permission_beq x p

theorem fits_permission (ht : t.Apart) (extra : List Param) :
    sights? t (.text p.resource :: .text p.action :: extra)
        [⟨relation t.permissions, relation t.permissions⟩]
        [compared .resource "1", compared .action "2"] =
      some [permissionsSight (relation t.permissions) (relation t.permissions)] := by
  have hsights : [(⟨relation t.permissions, relation t.permissions⟩ : TableRef)].mapM t.sight? =
      some [permissionsSight (relation t.permissions) (relation t.permissions)] := by
    rw [List.mapM_cons, sight?_permissions ht]
    rfl
  exact sights?_eq hsights rfl

theorem comesTo?_findPermission (ht : t.Apart) :
    r.comesTo? t [.text p.resource, .text p.action]
        (.select ⟨none, "id"⟩ [⟨relation t.permissions, relation t.permissions⟩]
          [compared .resource "1", compared .action "2"] none) =
      some (.gives ((r.ids p).map .int)) := by
  have hchosen : r.chosen t [.text p.resource, .text p.action]
      [⟨relation t.permissions, relation t.permissions⟩]
      [compared .resource "1", compared .action "2"] = _ :=
    chosen_permissions (holds_permission [] _)
  have htype : columnType? [permissionsSight (relation t.permissions) (relation t.permissions)]
      ⟨none, "id"⟩ = some .bigserial := rfl
  rw [Rows.comesTo?, fits_permission ht, Option.bind_some, htype, Option.map_some, hchosen,
    List.map_map, Rows.ids, List.map_map]
  rfl

theorem holds_joined (extra : List Param) (g : GrantRow) (x : PermissionRow) :
    joining.all (filterHolds t (.text p.resource :: .text p.action :: extra) r
      [("rp", g.record), ("p", x.record)]) =
      decide (x.id = g.permissionId ∧ x.permission = p) := by
  have h : joining.all (filterHolds t (.text p.resource :: .text p.action :: extra) r
      [("rp", g.record), ("p", x.record)]) =
      ((Value.int x.id == .int g.permissionId) &&
        ((some (Value.text p.resource) == some (.text x.permission.resource)) &&
          ((some (Value.text p.action) == some (.text x.permission.action)) && true))) := rfl
  rw [h, permission_beq, Bool.eq_iff_iff]
  simp

theorem sights_joined (ht : t.Apart)
    (hf : fs.all (filterFits t ps [grantsSight (relation t.permissions) (relation t.grants) "rp",
      permissionsSight (relation t.permissions) "p"]) = true) :
    (sights? t ps [⟨relation t.grants, "rp"⟩, ⟨relation t.permissions, "p"⟩] fs).isSome := by
  rw [sights?_eq _ hf]
  · rfl
  · simp only [List.mapM_cons, List.mapM_nil, sight?_permissions ht, sight?_grants ht]
    rfl

theorem comesTo?_countGrants (ht : t.Apart) :
    r.comesTo? t [.text p.resource, .text p.action]
        (.count [⟨relation t.grants, "rp"⟩, ⟨relation t.permissions, "p"⟩] joining) =
      some (.gives [.int (r.joined p).length]) := by
  have hsights : (sights? t [.text p.resource, .text p.action]
      [⟨relation t.grants, "rp"⟩, ⟨relation t.permissions, "p"⟩] joining).isSome :=
    sights_joined ht rfl
  obtain ⟨ss, hs⟩ := Option.isSome_iff_exists.1 hsights
  have hchosen := chosen_joined (r := r) ht (holds_joined (p := p) [])
  rw [Rows.comesTo?, hs, Option.map_some, hchosen]
  simp only [Rows.joined, List.length_flatMap, List.length_map]

theorem comesTo?_holdsAny (ht : t.Apart) :
    r.comesTo? t [.text p.resource, .text p.action, .texts roles]
        (.present [⟨relation t.grants, "rp"⟩, ⟨relation t.permissions, "p"⟩]
          (joining ++ [holding])) =
      some (.gives [.bool ((r.joined p).any fun g => roles.contains g.role)]) := by
  have hsights : (sights? t [.text p.resource, .text p.action, .texts roles]
      [⟨relation t.grants, "rp"⟩, ⟨relation t.permissions, "p"⟩] (joining ++ [holding])).isSome :=
    sights_joined ht rfl
  obtain ⟨ss, hs⟩ := Option.isSome_iff_exists.1 hsights
  have hholds (g : GrantRow) (x : PermissionRow) :
      (joining ++ [holding]).all
        (filterHolds t [.text p.resource, .text p.action, .texts roles] r
          [("rp", g.record), ("p", x.record)]) =
        (decide (x.id = g.permissionId ∧ x.permission = p) && roles.contains g.role) := by
    rw [List.all_append, holds_joined]
    exact congrArg _ (Bool.and_true _)
  rw [Rows.comesTo?, hs, Option.map_some, chosen_joined ht hholds]
  congr 4
  rw [Bool.eq_iff_iff]
  simp only [Rows.joined, Bool.not_eq_true', List.isEmpty_eq_false_iff_exists_mem, List.mem_flatMap,
    List.mem_map, List.mem_filter, Bool.and_eq_true, List.any_eq_true]
  constructor
  · rintro ⟨_, g, hg, x, ⟨hx, hgx, hroles⟩, rfl⟩
    exact ⟨g, ⟨g, hg, x, ⟨hx, hgx⟩, rfl⟩, hroles⟩
  · rintro ⟨_, ⟨g, hg, x, ⟨hx, hgx⟩, rfl⟩, hroles⟩
    exact ⟨_, g, hg, x, ⟨hx, hgx, hroles⟩, rfl⟩

theorem comesTo?_listRoles (ht : t.Apart) :
    r.comesTo? t [.int id]
        (.select ⟨none, "role_id"⟩ [⟨relation t.grants, relation t.grants⟩]
          [compared .permissionId "1"] (some ⟨none, "role_id"⟩)) =
      some (.lists ((r.grants.filter fun g => g.permissionId = id).map (·.role))) := by
  have hholds (g : GrantRow) : [compared .permissionId "1"].all
      (filterHolds t [.int id] r [(relation t.grants, g.record)]) =
      decide (g.permissionId = id) := by
    have h : [compared .permissionId "1"].all
        (filterHolds t [.int id] r [(relation t.grants, g.record)]) =
        ((some (Value.int id) == some (.int g.permissionId)) && true) := rfl
    rw [h, Bool.eq_iff_iff]
    simp only [Bool.and_true, beq_iff_eq, Option.some.injEq, Value.int.injEq, decide_eq_true_eq]
    exact eq_comm
  have hsights : sights? t [.int id] [⟨relation t.grants, relation t.grants⟩]
      [compared .permissionId "1"] =
      some [grantsSight (relation t.permissions) (relation t.grants) (relation t.grants)] := by
    refine sights?_eq ?_ rfl
    rw [List.mapM_cons, sight?_grants ht]
    rfl
  have htype : columnType? [grantsSight (relation t.permissions) (relation t.grants)
      (relation t.grants)] ⟨none, "role_id"⟩ = some .varchar := rfl
  rw [Rows.comesTo?, hsights, Option.bind_some, htype, chosen_grants ht hholds]
  simp only [if_true, List.filterMap_map]
  congr 2
  exact congrFun List.filterMap_eq_map _

theorem alike_permissions : ((r.records t (relation t.permissions)).any
    (agree ["resource", "action"] [("resource", .text p.resource), ("action", .text p.action)])) =
    !decide (r.ids p = []) := by
  have hagree (x : PermissionRow) : agree ["resource", "action"]
      [("resource", .text p.resource), ("action", .text p.action)] x.record =
      decide (x.permission = p) :=
    permission_beq x p
  rw [records_permissions, List.any_map, Bool.eq_iff_iff]
  simp only [List.any_eq_true, Function.comp_apply, hagree, Rows.ids]
  simp [List.filter_eq_nil_iff]

theorem inserted?_eq {d : Declaration} {x : Record} {sparing : Option (List String)}
    (hx : x.all (fun y => d.columns.any fun c => c.name == y.1 && holds c.type y.2) = true)
    (hs : sparing.all d.unique.contains = true) :
    r.inserted? t d x sparing =
      if sparing.any fun u => (r.records t d.table).any (agree u x) then some (.leaves 0 r)
      else if d.unique.any fun u => (r.records t d.table).any (agree u x) then
        some (.violates uniqueViolation)
      else if r.refers t d x then r.added? t d.table x
      else some (.violates foreignKeyViolation) := by
  simp only [Rows.inserted?, hx, hs, Bool.not_true, Bool.false_eq_true, if_false]
  cases r.refers t d x <;> rfl

theorem comesTo?_insertPermission (ht : t.Apart) :
    r.comesTo? t [.text p.resource, .text p.action]
        (.insert (relation t.permissions) ["resource", "action"] ["1", "2"] none) =
      some (if r.ids p = [] then .adds p else .violates uniqueViolation) := by
  have hvalues : ["1", "2"].mapM (fun n => (boundTo? [.text p.resource, .text p.action] n).bind
      valueOf?) = some [.text p.resource, .text p.action] := rfl
  have hinserted : r.inserted? t (permissionsTable (relation t.permissions))
      [("resource", .text p.resource), ("action", .text p.action)] none = _ :=
    inserted?_eq rfl rfl
  have hrefers : r.refers t (permissionsTable (relation t.permissions))
      [("resource", .text p.resource), ("action", .text p.action)] = true := rfl
  have hadded : r.added? t (relation t.permissions)
      [("resource", .text p.resource), ("action", .text p.action)] = some (.adds p) := if_pos rfl
  simp only [Rows.comesTo?, declaration?_permissions ht, hvalues, List.zip_cons_cons,
    List.zip_nil_right, hinserted, hrefers, Option.any_none]
  simp only [permissionsTable, List.any_cons, List.any_nil, Bool.or_false, alike_permissions,
    hadded]
  by_cases hp : r.ids p = []
  · simp [hp]
  · simp [hp]

theorem alike_grants (ht : t.Apart) : ((r.records t (relation t.grants)).any
    (agree ["permission_id", "role_id"] [("permission_id", .int id), ("role_id", .text role)])) =
    decide (⟨id, role⟩ ∈ r.grants) := by
  have hagree (g : GrantRow) : agree ["permission_id", "role_id"]
      [("permission_id", .int id), ("role_id", .text role)] g.record = decide (⟨id, role⟩ = g) := by
    have h : agree ["permission_id", "role_id"]
        [("permission_id", .int id), ("role_id", .text role)] g.record =
        ((some (Value.int id) == some (.int g.permissionId)) &&
          ((some (Value.text role) == some (.text g.role)) && true)) := rfl
    obtain ⟨i, x⟩ := g
    rw [h, Bool.eq_iff_iff]
    simp
  rw [records_grants ht, List.any_map, Bool.eq_iff_iff]
  simp [hagree]

theorem refers_grants : r.refers t (grantsTable (relation t.permissions) (relation t.grants))
    [("permission_id", .int id), ("role_id", .text role)] =
    decide (id ∈ r.permissions.map (·.id)) := by
  have hlookup (x : PermissionRow) : x.record.lookup "id" = some (.int x.id) := rfl
  have hid : ([("permission_id", .int id), ("role_id", .text role)] : Record).lookup
      "permission_id" = some (.int id) := rfl
  simp only [Rows.refers, grantsTable, List.all_cons, List.all_nil, Option.all_none,
    Option.all_some, Bool.true_and, Bool.and_true, hid, records_permissions, List.any_map]
  rw [Bool.eq_iff_iff]
  simp [hlookup]

theorem comesTo?_insertGrant (ht : t.Apart) :
    r.comesTo? t [.int id, .text role]
        (.insert (relation t.grants) ["permission_id", "role_id"] ["1", "2"]
          (some ["permission_id", "role_id"])) =
      some (if ⟨id, role⟩ ∈ r.grants then .leaves 0 r
        else if id ∈ r.permissions.map (·.id) then
          .leaves 1 { r with grants := r.grants ++ [⟨id, role⟩] }
        else .violates foreignKeyViolation) := by
  have hvalues : ["1", "2"].mapM (fun n => (boundTo? [.int id, .text role] n).bind
      valueOf?) = some [.int id, .text role] := rfl
  have hinserted : r.inserted? t (grantsTable (relation t.permissions) (relation t.grants))
      [("permission_id", .int id), ("role_id", .text role)] (some ["permission_id", "role_id"]) =
      _ :=
    inserted?_eq rfl rfl
  have hadded : r.added? t (relation t.grants)
      [("permission_id", .int id), ("role_id", .text role)] =
      some (.leaves 1 { r with grants := r.grants ++ [⟨id, role⟩] }) := if_pos rfl
  simp only [Rows.comesTo?, declaration?_grants ht, hvalues, List.zip_cons_cons,
    List.zip_nil_right, hinserted, refers_grants, Option.any_some]
  simp only [grantsTable, List.any_cons, List.any_nil, Bool.or_false, alike_grants ht, hadded]
  by_cases hg : ⟨id, role⟩ ∈ r.grants
  · simp [hg]
  · by_cases hid : id ∈ r.permissions.map (·.id)
    · simp only [hg, hid, decide_false, decide_true, Bool.false_eq_true, if_false, if_true]
    · simp only [hg, hid, decide_false, Bool.false_eq_true, if_false]

theorem referred_eq (ht : t.Apart) (table : String) (y : Record) : r.referred t table y =
    (relation t.permissions == table && r.grants.any fun g =>
      y.lookup "id" == some (.int g.permissionId)) := by
  have hgrants : r.records t (grantsTable (relation t.permissions) (relation t.grants)).table =
      r.grants.map (·.record) := records_grants ht
  rw [Rows.referred, declarations_eq ht]
  simp only [List.any_cons, List.any_nil, hgrants]
  simp only [permissionsTable, grantsTable, List.any_cons, List.any_nil, Option.any_none,
    Option.any_some, Bool.false_or, Bool.or_false, List.any_map]
  rfl

theorem comesTo?_deletePermission (ht : t.Apart) :
    r.comesTo? t [.text p.resource, .text p.action]
        (.delete ⟨relation t.permissions, relation t.permissions⟩
          [compared .resource "1", compared .action "2"]) =
      some (if r.referenced p = [] then
          .leaves (r.ids p).length
            { r with permissions := r.permissions.filter fun x => x.permission ≠ p }
        else .violates foreignKeyViolation) := by
  have hrows : (r.records t (relation t.permissions)).filter (fun y =>
      [compared .resource "1", compared .action "2"].all (filterHolds t
        [.text p.resource, .text p.action] r [(relation t.permissions, y)])) =
      (r.permissions.filter fun x => x.permission = p).map (·.record) := by
    rw [records_permissions, List.filter_map]
    exact congrArg _ (List.filter_congr fun x _ => holds_permission [] _ x)
  have hreferred : ((r.permissions.filter fun x => x.permission = p).map (·.record)).any
      (r.referred t (relation t.permissions)) = !decide (r.referenced p = []) := by
    have hlookup (x : PermissionRow) : x.record.lookup "id" = some (.int x.id) := rfl
    rw [List.any_map, Bool.eq_iff_iff, Bool.not_eq_true', decide_eq_false_iff_not,
      List.eq_nil_iff_forall_not_mem, not_forall_not]
    simp only [List.any_eq_true, List.mem_filter, decide_eq_true_eq, Function.comp_apply,
      referred_eq ht, beq_self_eq_true, Bool.true_and, hlookup, beq_iff_eq, Option.some.injEq,
      Value.int.injEq, Rows.referenced, Rows.mem_ids]
    constructor
    · rintro ⟨⟨i, q⟩, ⟨hx, rfl⟩, g, hg, rfl⟩
      exact ⟨g, hg, hx⟩
    · rintro ⟨g, hg, hx⟩
      exact ⟨_, ⟨hx, rfl⟩, g, hg, rfl⟩
  have hwithout : r.without t (relation t.permissions) (fun y =>
      [compared .resource "1", compared .action "2"].all (filterHolds t
        [.text p.resource, .text p.action] r [(relation t.permissions, y)])) =
      { r with permissions := r.permissions.filter fun x => x.permission ≠ p } := by
    rw [Rows.without, if_pos rfl]
    simp only [holds_permission]
    simp
  have hlength : ((r.permissions.filter fun x => x.permission = p).map (·.record)).length =
      (r.ids p).length := by
    rw [Rows.ids, List.length_map, List.length_map]
  rw [Rows.comesTo?, fits_permission ht, Option.map_some]
  simp only [Rows.deleted, hrows, hreferred, hwithout, hlength]
  cases hn : decide (r.referenced p = [])
  · rw [if_neg (of_decide_eq_false hn)]
    rfl
  · rw [if_pos (of_decide_eq_true hn)]
    rfl

theorem holds_belonging (extra : List Param) (name : String) (g : GrantRow) :
    filterHolds t (.text p.resource :: .text p.action :: extra) r [(name, g.record)]
      (belonging (relation t.permissions)) = decide (g.permissionId ∈ r.ids p) := by
  have h : filterHolds t (.text p.resource :: .text p.action :: extra) r [(name, g.record)]
      (belonging (relation t.permissions)) =
      (r.records t (relation t.permissions)).any fun y =>
        [Condition.equals ⟨none, "resource"⟩ "1", .equals ⟨none, "action"⟩ "2"].all (conditionHolds
          (.text p.resource :: .text p.action :: extra) [(relation t.permissions, y)]) &&
        columnValue [(relation t.permissions, y)] ⟨none, "id"⟩ == .int g.permissionId := rfl
  have hfound (x : PermissionRow) :
      ([Condition.equals ⟨none, "resource"⟩ "1", .equals ⟨none, "action"⟩ "2"].all (conditionHolds
          (.text p.resource :: .text p.action :: extra) [(relation t.permissions, x.record)]) &&
        columnValue [(relation t.permissions, x.record)] ⟨none, "id"⟩ == .int g.permissionId) =
      (decide (x.permission = p) && (Value.int x.id == .int g.permissionId)) :=
    congrArg (· && _) (permission_beq x p)
  rw [h, records_permissions, List.any_map, Bool.eq_iff_iff]
  simp only [List.any_eq_true, Function.comp_apply, hfound, Bool.and_eq_true, decide_eq_true_eq,
    beq_iff_eq, Value.int.injEq, Rows.ids, List.mem_map, List.mem_filter, and_assoc]

theorem fits_belonging (ht : t.Apart) (extra : List Param) :
    filterFits t (.text p.resource :: .text p.action :: extra)
      [grantsSight (relation t.permissions) (relation t.grants) (relation t.grants)]
      (belonging (relation t.permissions)) = true := by
  rw [belonging, filterFits, sight?_permissions ht]
  rfl

theorem sights?_grants (ht : t.Apart) (hf : fs.all (filterFits t ps
    [grantsSight (relation t.permissions) (relation t.grants) (relation t.grants)]) = true) :
    sights? t ps [⟨relation t.grants, relation t.grants⟩] fs =
      some [grantsSight (relation t.permissions) (relation t.grants) (relation t.grants)] := by
  refine sights?_eq ?_ hf
  rw [List.mapM_cons, sight?_grants ht]
  rfl

theorem deleted_grants (ht : t.Apart) {name : String} {test : GrantRow → Bool}
    (h : ∀ g, fs.all (filterHolds t ps r [(name, g.record)]) = test g) :
    r.deleted t ps ⟨relation t.grants, name⟩ fs = .leaves (r.grants.filter test).length
      { r with grants := r.grants.filter fun g => !test g } := by
  have hrows : (r.records t (relation t.grants)).filter
      (fun y => fs.all (filterHolds t ps r [(name, y)])) =
      (r.grants.filter test).map (·.record) := by
    rw [records_grants ht, List.filter_map]
    exact congrArg _ (List.filter_congr fun g _ => h g)
  have hreferred (ys : List Record) : ys.any (r.referred t (relation t.grants)) = false := by
    rw [List.any_eq_false]
    intro y hy
    rw [referred_eq ht, beq_false_of_ne ht.differ]
    exact Bool.false_ne_true
  have hwithout : r.without t (relation t.grants)
      (fun y => fs.all (filterHolds t ps r [(name, y)])) =
      { r with grants := r.grants.filter fun g => !test g } := by
    simp only [Rows.without, if_neg ht.differ.symm, h]
  simp only [Rows.deleted, hrows, hreferred, hwithout, List.length_map]
  rfl

theorem comesTo?_deleteGrants (ht : t.Apart) :
    r.comesTo? t [.text p.resource, .text p.action]
        (.delete ⟨relation t.grants, relation t.grants⟩ [belonging (relation t.permissions)]) =
      some (.leaves (r.referenced p).length
        { r with grants := r.grants.filter fun g => g.permissionId ∉ r.ids p }) := by
  have hfits : [belonging (relation t.permissions)].all (filterFits t
      [.text p.resource, .text p.action]
      [grantsSight (relation t.permissions) (relation t.grants) (relation t.grants)]) = true := by
    rw [List.all_cons, fits_belonging ht]
    rfl
  have hholds (g : GrantRow) : [belonging (relation t.permissions)].all
      (filterHolds t [.text p.resource, .text p.action] r [(relation t.grants, g.record)]) =
      decide (g.permissionId ∈ r.ids p) := by
    rw [List.all_cons, holds_belonging]
    exact Bool.and_true _
  rw [Rows.comesTo?, sights?_grants ht hfits, Option.map_some, deleted_grants ht hholds]
  simp only [Rows.referenced, decide_not]

theorem comesTo?_deleteGrant (ht : t.Apart) :
    r.comesTo? t [.text p.resource, .text p.action, .text role]
        (.delete ⟨relation t.grants, relation t.grants⟩
          [compared .roleId "3", belonging (relation t.permissions)]) =
      some (.leaves ((r.referenced p).filter fun g => g.role = role).length
        { r with
          grants := r.grants.filter fun g => ¬ (g.role = role ∧ g.permissionId ∈ r.ids p) }) := by
  have hfits : [compared .roleId "3", belonging (relation t.permissions)].all (filterFits t
      [.text p.resource, .text p.action, .text role]
      [grantsSight (relation t.permissions) (relation t.grants) (relation t.grants)]) = true := by
    rw [List.all_cons, List.all_cons, fits_belonging ht]
    rfl
  have hholds (g : GrantRow) : [compared .roleId "3", belonging (relation t.permissions)].all
      (filterHolds t [.text p.resource, .text p.action, .text role] r
        [(relation t.grants, g.record)]) =
      decide (g.role = role ∧ g.permissionId ∈ r.ids p) := by
    have h : [compared .roleId "3", belonging (relation t.permissions)].all
      (filterHolds t [.text p.resource, .text p.action, .text role] r
        [(relation t.grants, g.record)]) = ((some (Value.text role) == some (.text g.role)) &&
          (filterHolds t [.text p.resource, .text p.action, .text role] r
        [(relation t.grants, g.record)] (belonging (relation t.permissions)) && true)) := rfl
    rw [h, holds_belonging, Bool.eq_iff_iff]
    simp only [Bool.and_true, Bool.and_eq_true, beq_iff_eq, Option.some.injEq, Value.text.injEq,
      decide_eq_true_eq]
    exact and_congr_left fun _ => eq_comm
  rw [Rows.comesTo?, sights?_grants ht hfits, Option.map_some, deleted_grants ht hholds]
  simp only [Rows.referenced, List.filter_filter, Bool.decide_and, decide_not]

/-- The text of each statement, with its values, means what its command comes to. -/
theorem meaning?_statement (ht : t.Apart) (c : Command) :
    r.meaning? t (c.statement t) = some (r.outcome c) := by
  rw [Rows.meaning?, statement, read?_template ht.permissions ht.grants, Option.bind_some]
  cases c with
  | createPermissions => exact congrArg (Option.map _) (declaration?_permissions ht)
  | createGrants => exact congrArg (Option.map _) (declaration?_grants ht)
  | createIndex => exact congrArg (Option.map _) (declaration?_grants ht)
  | findPermission p => exact comesTo?_findPermission ht
  | countGrants p => exact comesTo?_countGrants ht
  | insertPermission p => exact comesTo?_insertPermission ht
  | deletePermission p => exact comesTo?_deletePermission ht
  | insertGrant id role => exact comesTo?_insertGrant ht
  | deleteGrants p => exact comesTo?_deleteGrants ht
  | deleteGrant p role => exact comesTo?_deleteGrant ht
  | holdsAny p roles => exact comesTo?_holdsAny ht
  | listRoles id => exact comesTo?_listRoles ht

end Command

end AccessControl.Postgres
