import AccessControl.Authority.Session
import AccessControl.Proofs.Postgres.Agreement
import AccessControl.Proofs.Postgres.Template
import AccessControl.Settings.Sections

/-!
# What is sent to a server

The store is opened and called again and again. Which texts are sent depends on what is done and on
what the server answers, never on the permissions and roles that it is done with: these are found in
the parameters alone.
-/

namespace AccessControl.Postgres

open Sql

abbrev Wire : Type := Registry × Server

inductive Deed where
  | opening
  | call (k : StoreCall)
deriving DecidableEq, Repr

namespace Deed

def method? : Deed → Option StoreCall.Method
  | opening => none
  | call k => some k.method

abbrev Result : Deed → Type
  | opening => Except StoreError Unit
  | call k => k.Result

def conversation (c : PermissionConfig) (registered : Bool) : (d : Deed) → Conversation d.Result
  | opening => openStore registered c
  | call k => perform k

def spoken (c : PermissionConfig) (d : Deed) (w : Wire) :
    Dialogue Statement (fun _ => Answer) d.Result :=
  statements (.ofConfig c) (d.conversation c (w.1.pool? c.datasource).isSome)

def after (c : PermissionConfig) (d : Deed) (w : Wire) : Wire :=
  ((d.spoken c w).run (Registry.execute c.datasource) w).2

def asked (c : PermissionConfig) (d : Deed) (w : Wire) : List Statement :=
  ((d.spoken c w).exchanges (Registry.execute c.datasource) w).map (·.1)

def sent (c : PermissionConfig) (d : Deed) (w : Wire) : List Statement :=
  (d.after c w).2.log.drop w.2.log.length

def plan : Option StoreCall.Method → List Command.Kind
  | none => [.createPermissions, .createGrants, .createIndex]
  | some .insert => [.insertPermission]
  | some .delete => [.deletePermission, .countGrants]
  | some .grant => [.findPermission, .insertGrant]
  | some .revokeAll => [.deleteGrants]
  | some .revoke => [.deleteGrant]
  | some .hasAny => [.holdsAny]
  | some .grantedRoles => [.findPermission, .listRoles]

def value? : Deed → Column → Option Param
  | call k, .resource => some (.text k.permission.resource)
  | call k, .action => some (.text k.permission.action)
  | call (.grant _ r), .roleId | call (.revoke _ r), .roleId => some (.text r.id)
  | call (.hasAny roles _), .roleId => some (.texts (roles.map (·.id)))
  | _, _ => none

end Deed

structure Passage where
  deed : Deed
  asked : List Statement
  sent : List Statement
deriving DecidableEq, Repr

def traffic (c : PermissionConfig) : List Deed → Wire → List Passage
  | [], _ => []
  | d :: ds, w => ⟨d, d.asked c w, d.sent c w⟩ :: traffic c ds (d.after c w)

/-- Two conversations that ask for the same kinds of statements as long as they are given the same
answers: these kinds in this order, where they may stop early. -/
inductive Parallel {α β : Type} (P P' : Command → Prop) :
    List Command.Kind → Conversation α → Conversation β → Prop
  | done {ks : List Command.Kind} (a : α) (b : β) : Parallel P P' ks (.done a) (.done b)
  | ask {ks : List Command.Kind} {k : Command.Kind} {q q' : Command}
      {next : Answer → Conversation α} {next' : Answer → Conversation β} (hk : q.kind = k)
      (hk' : q'.kind = k) (hq : P q) (hq' : P' q') (h : ∀ y, Parallel P P' ks (next y) (next' y)) :
      Parallel P P' (k :: ks) (.ask q next) (.ask q' next')
  | noteLeft {ks : List Command.Kind} {n : Note} {d : Conversation α} {d' : Conversation β}
      (h : Parallel P P' ks d d') : Parallel P P' ks (.note n d) d'
  | noteRight {ks : List Command.Kind} {n : Note} {d : Conversation α} {d' : Conversation β}
      (h : Parallel P P' ks d d') : Parallel P P' ks d (.note n d')

section

variable {α β : Type} {P P' : Command → Prop} {ks : List Command.Kind} {d : Conversation α}
  {d' : Conversation β} {p p' : Permission} {r r' : Role} {q q' : Command} {f : Failure}

theorem Parallel.note {n n' : Note} (h : Parallel P P' ks d d') :
    Parallel P P' ks (.note n d) (.note n' d') :=
  .noteLeft (.noteRight h)

theorem Parallel.exchanges {σ : Type} (h : Parallel P P' ks d d')
    (peer : Command → σ → Answer × σ) (s : σ) :
    ((d.exchanges peer s).map (·.1)).map (·.kind) <+: ks ∧
      ∀ q ∈ (d.exchanges peer s).map (·.1), P q := by
  induction h generalizing s with
  | done a b => exact ⟨List.nil_prefix, nofun⟩
  | @ask ks k q q' next next' hk hk' hq hq' h ih =>
    obtain ⟨hp, hall⟩ := ih (peer q s).1 (peer q s).2
    refine ⟨?_, List.forall_mem_cons.2 ⟨hq, hall⟩⟩
    simp only [Dialogue.exchanges, List.map_cons, hk]
    exact (List.prefix_cons_inj k).2 hp
  | noteLeft h ih => exact ih s
  | noteRight h ih => exact ih s

theorem parallel_storageError {α β : Type} : Parallel (α := Except StoreError α)
    (β := Except StoreError β) P P' ks (storageError q f) (storageError q' f) :=
  .note (.done _ _)

theorem parallel_withId {α β : Type} {next : Int → Conversation (Except StoreError α)}
    {next' : Int → Conversation (Except StoreError β)} (hp : P (.findPermission p))
    (hp' : P' (.findPermission p')) (h : ∀ id, Parallel P P' ks (next id) (next' id)) :
    Parallel P P' (.findPermission :: ks) (withId p next) (withId p' next') := by
  refine .ask rfl rfl hp hp' fun y => ?_
  generalize y.bind (Table.optional Value.int?) = a
  cases a with
  | error f => exact parallel_storageError
  | ok id =>
    cases id with
    | none => exact .done _ _
    | some id => exact h id

theorem parallel_insert (hp : P (.insertPermission p)) (hp' : P' (.insertPermission p')) :
    Parallel P P' [.insertPermission] (insert p) (insert p') := by
  refine .ask rfl rfl hp hp' fun y => ?_
  cases y with
  | ok t => exact .done _ _
  | error f =>
    dsimp only
    split
    · exact .done _ _
    · exact parallel_storageError

theorem parallel_delete (hp : P (.deletePermission p)) (hp' : P' (.deletePermission p'))
    (hc : P (.countGrants p)) (hc' : P' (.countGrants p')) :
    Parallel P P' [.deletePermission, .countGrants] (delete p) (delete p') := by
  refine .ask rfl rfl hp hp' fun y => ?_
  cases y with
  | ok t => exact .done _ _
  | error f =>
    dsimp only
    split
    · refine .ask rfl rfl hc hc' fun y => ?_
      generalize y.bind (Table.required Value.int?) = a
      cases a with
      | error f => exact parallel_storageError
      | ok n => exact .done _ _
    · exact parallel_storageError

theorem parallel_grant (hp : P (.findPermission p)) (hp' : P' (.findPermission p'))
    (hg : ∀ id, P (.insertGrant id r.id)) (hg' : ∀ id, P' (.insertGrant id r'.id)) :
    Parallel P P' [.findPermission, .insertGrant] (grant p r) (grant p' r') := by
  refine parallel_withId hp hp' fun id => .ask rfl rfl (hg id) (hg' id) fun y => ?_
  cases y with
  | ok t => exact .done _ _
  | error f =>
    dsimp only
    split
    · exact .done _ _
    · exact parallel_storageError

theorem parallel_revokeAll (hp : P (.deleteGrants p)) (hp' : P' (.deleteGrants p')) :
    Parallel P P' [.deleteGrants] (revokeAll p) (revokeAll p') := by
  refine .ask rfl rfl hp hp' fun y => ?_
  cases y with
  | ok t => exact .note (.done _ _)
  | error f => exact parallel_storageError

theorem parallel_revoke (hp : P (.deleteGrant p r.id)) (hp' : P' (.deleteGrant p' r'.id)) :
    Parallel P P' [.deleteGrant] (revoke p r) (revoke p' r') := by
  refine .ask rfl rfl hp hp' fun y => ?_
  cases y with
  | ok t => exact .done _ _
  | error f => exact parallel_storageError

theorem parallel_hasAny {roles roles' : List Role} (hp : P (.holdsAny p (roles.map (·.id))))
    (hp' : P' (.holdsAny p' (roles'.map (·.id)))) :
    Parallel P P' [.holdsAny] (hasAny roles p) (hasAny roles' p') := by
  refine .ask rfl rfl hp hp' fun y => ?_
  generalize y.bind (Table.required Value.bool?) = a
  cases a with
  | error f => exact parallel_storageError
  | ok b => exact .done _ _

theorem parallel_grantedRoles (hp : P (.findPermission p)) (hp' : P' (.findPermission p'))
    (hl : ∀ id, P (.listRoles id)) (hl' : ∀ id, P' (.listRoles id)) :
    Parallel P P' [.findPermission, .listRoles] (grantedRoles p) (grantedRoles p') := by
  refine parallel_withId hp hp' fun id => .ask rfl rfl (hl id) (hl' id) fun y => ?_
  generalize y.bind (Table.all Value.text?) = a
  cases a with
  | error f => exact parallel_storageError
  | ok ids => exact .done _ _

/-- What a command says of the columns is what the deed has for them, but for ids of rows. -/
def Command.Carries (d : Deed) (q : Command) : Prop :=
  ∀ col v, q.value? col = some v → col = .permissionId ∨ d.value? col = some v

theorem carries_call {k : StoreCall} (hp : ∀ p ∈ q.permission?, p = k.permission)
    (hr : ∀ v, q.value? .roleId = some v → (Deed.call k).value? .roleId = some v) :
    q.Carries (.call k) := by
  intro col v hv
  cases col with
  | resource =>
    obtain ⟨p, hp', rfl⟩ := Option.map_eq_some_iff.1 hv
    exact .inr (by rw [hp p hp']; rfl)
  | action =>
    obtain ⟨p, hp', rfl⟩ := Option.map_eq_some_iff.1 hv
    exact .inr (by rw [hp p hp']; rfl)
  | permissionId => exact .inl rfl
  | roleId => exact .inr (hr v hv)

theorem carries_named {k : StoreCall} (hp : q.permission? = some k.permission)
    (hr : ∀ v, q.value? .roleId = some v → (Deed.call k).value? .roleId = some v) :
    q.Carries (.call k) :=
  carries_call (fun _ hp' => (Option.some.inj (hp.symm.trans hp')).symm) hr

theorem parallel_perform : ∀ {k k' : StoreCall}, k.method = k'.method →
    Parallel (Command.Carries (.call k)) (Command.Carries (.call k')) (Deed.plan (some k.method))
      (perform k) (perform k')
  | .insert _, .insert _, _ =>
    .note (parallel_insert (carries_named rfl nofun) (carries_named rfl nofun))
  | .delete _, .delete _, _ =>
    .note (parallel_delete (carries_named rfl nofun) (carries_named rfl nofun)
      (carries_named rfl nofun) (carries_named rfl nofun))
  | .grant _ _, .grant _ _, _ =>
    .note (parallel_grant (carries_named rfl nofun) (carries_named rfl nofun)
      (fun _ => carries_call nofun fun _ hv => hv) fun _ => carries_call nofun fun _ hv => hv)
  | .revokeAll _, .revokeAll _, _ =>
    .note (parallel_revokeAll (carries_named rfl nofun) (carries_named rfl nofun))
  | .revoke _ _, .revoke _ _, _ =>
    .note (parallel_revoke (carries_named rfl fun _ hv => hv) (carries_named rfl fun _ hv => hv))
  | .hasAny _ _, .hasAny _ _, _ =>
    parallel_hasAny (carries_named rfl fun _ hv => hv) (carries_named rfl fun _ hv => hv)
  | .grantedRoles _, .grantedRoles _, _ =>
    parallel_grantedRoles (carries_named rfl nofun) (carries_named rfl nofun)
      (fun _ => carries_call nofun nofun) fun _ => carries_call nofun nofun

theorem parallel_create (t : Tables) (cs : List Command) (hp : ∀ q ∈ cs, P q)
    (hp' : ∀ q ∈ cs, P' q) :
    Parallel P P' (cs.map Command.kind) (ensureSchema.create t cs) (ensureSchema.create t cs) := by
  induction cs with
  | nil => exact .note (.done _ _)
  | cons q cs ih =>
    refine .ask rfl rfl (hp q List.mem_cons_self) (hp' q List.mem_cons_self) fun y => ?_
    cases y with
    | error f => exact parallel_storageError
    | ok t =>
      exact ih (fun q hq => hp q (List.mem_cons_of_mem _ hq))
        fun q hq => hp' q (List.mem_cons_of_mem _ hq)

theorem Parallel.bind {α' β' : Type} {g : α → Conversation α'} {g' : β → Conversation β'}
    (h : Parallel P P' ks d d') (hg : ∀ ks a b, Parallel P P' ks (g a) (g' b)) :
    Parallel P P' ks (d.bind g) (d'.bind g') := by
  induction h with
  | done a b => exact hg _ a b
  | ask hk hk' hq hq' h ih => exact .ask hk hk' hq hq' ih
  | noteLeft h ih => exact .noteLeft ih
  | noteRight h ih => exact .noteRight ih

theorem parallel_openStore (registered : Bool) (c : PermissionConfig) :
    Parallel (Command.Carries .opening) (Command.Carries .opening) (Deed.plan none)
      (openStore registered c) (openStore registered c) := by
  have hcarries : ∀ q ∈ [Command.createPermissions, .createGrants, .createIndex],
      q.Carries .opening := by
    intro q hq col v hv
    simp only [List.mem_cons, List.not_mem_nil, or_false] at hq
    rcases hq with rfl | rfl | rfl <;> cases col <;> cases hv
  simp only [openStore]
  split
  · exact .done _ _
  · split
    · refine (parallel_create _ _ hcarries hcarries).bind fun ks a b => ?_
      cases a with
      | error e =>
        cases b with
        | error e' => exact .done _ _
        | ok _ => exact .noteRight (.done _ _)
      | ok _ =>
        cases b with
        | error e' => exact .noteLeft (.done _ _)
        | ok _ => exact .note (.done _ _)
    · exact .note (.done _ _)

theorem parallel_conversation {e e' : Deed} (h : e.method? = e'.method?) (c : PermissionConfig)
    (registered : Bool) : Parallel (Command.Carries e) (Command.Carries e') (Deed.plan e.method?)
      (e.conversation c registered) (e'.conversation c registered) := by
  cases e with
  | opening =>
    cases e' with
    | opening => exact parallel_openStore registered c
    | call k => cases h
  | call k =>
    cases e' with
    | opening => cases h
    | call k' => exact parallel_perform (Option.some.inj h)

end

section

variable {n : String} {w w' : Wire} {c : PermissionConfig} {t : Tables}

def bare (q : Statement) : Statement := ⟨q.text, []⟩

def bareLog (s : Server) : Server := { s with log := s.log.map bare }

theorem connect_bareLog (s : Server) :
    (bareLog s).connect = (s.connect.1, bareLog s.connect.2) := by
  obtain ⟨reachable, startup, script, log⟩ := s
  cases reachable <;> rfl

theorem execute_bareLog (q : Statement) (s : Server) : (bareLog s).execute (bare q) =
    ((s.execute q).1, (s.execute q).2.1, bareLog (s.execute q).2.2) := by
  have hlog : (s.log ++ [q]).map bare = s.log.map bare ++ [bare q] := List.map_append
  cases hs : s.script with
  | nil => simp only [Server.execute, bareLog, hs, hlog]
  | cons turn script => cases turn <;> simp only [Server.execute, bareLog, hs, hlog]

theorem ready_bareLog (p : Pool) (s : Server) :
    p.ready (bareLog s) = ((p.ready s).1, bareLog (p.ready s).2) := by
  simp only [Pool.ready, connect_bareLog]
  split
  · rfl
  · split
    · rfl
    · split
      · rfl
      · generalize s.connect = x
        obtain ⟨f, s'⟩ := x
        cases f <;> rfl

theorem poolExecute_bareLog (q : Statement) (p : Pool) (s : Server) :
    p.execute (bare q) (bareLog s) =
      ((p.execute q s).1, (p.execute q s).2.1, bareLog (p.execute q s).2.2) := by
  simp only [Pool.execute, ready_bareLog]
  generalize p.ready s = x
  obtain ⟨r, s'⟩ := x
  cases r with
  | error f => rfl
  | ok p' => simp only [execute_bareLog]

/-- Two wires that differ in nothing but the parameters that were sent. -/
def Alike (w w' : Wire) : Prop := w.1 = w'.1 ∧ bareLog w.2 = bareLog w'.2

theorem execute_bare (q : Statement) (w : Wire) :
    Registry.execute n (bare q) (w.1, bareLog w.2) =
      ((Registry.execute n q w).1, (Registry.execute n q w).2.1,
        bareLog (Registry.execute n q w).2.2) := by
  obtain ⟨r, s⟩ := w
  simp only [Registry.execute]
  cases r.pool? n with
  | none => rfl
  | some p => simp only [poolExecute_bareLog]

theorem Alike.execute {q q' : Statement} (hw : Alike w w') (hq : q.text = q'.text) :
    (Registry.execute n q w).1 = (Registry.execute n q' w').1 ∧
      Alike (Registry.execute n q w).2 (Registry.execute n q' w').2 := by
  have hb := execute_bare (n := n) q w
  have hb' := execute_bare (n := n) q' w'
  rw [show bare q = bare q' by rw [bare, bare, hq], hw.1, hw.2, hb'] at hb
  simp only [Prod.mk.injEq] at hb
  exact ⟨hb.1.symm, hb.2.1.symm, hb.2.2.symm⟩

theorem Parallel.alike {α β : Type} {P P' : Command → Prop} {ks : List Command.Kind}
    {d : Conversation α} {d' : Conversation β} (h : Parallel P P' ks d d') (hw : Alike w w') :
    Alike ((statements t d).run (Registry.execute n) w).2
      ((statements t d').run (Registry.execute n) w').2 := by
  rw [run_statements, run_statements]
  induction h generalizing w w' with
  | done a b => exact hw
  | @ask ks k q q' next next' hk hk' hq hq' h ih =>
    have htext : (q.statement t).text = (q'.statement t).text := by
      simp only [Command.statement, hk, hk']
    obtain ⟨ha, hw'⟩ := hw.execute (n := n) htext
    rw [run_ask, run_ask, ha]
    exact ih _ hw'
  | noteLeft h ih => exact ih hw
  | noteRight h ih => exact ih hw

theorem exchanges_statements {α σ : Type} (peer : Statement → σ → Answer × σ)
    (d : Conversation α) (s : σ) : ((statements t d).exchanges peer s).map (·.1) =
      (d.exchanges (fun q => peer (q.statement t)) s).map (·.1.statement t) := by
  induction d generalizing s with
  | done a => rfl
  | ask q next ih => exact congrArg _ (ih _ _)
  | note x d ih => exact ih s

theorem log_execute (q : Statement) (w : Wire) :
    (Registry.execute n q w).2.2.log = w.2.log ∨
      (Registry.execute n q w).2.2.log = w.2.log ++ [q] := by
  obtain ⟨r, s⟩ := w
  simp only [Registry.execute]
  cases r.pool? n with
  | none => exact .inl rfl
  | some p => exact p.log_execute q s

theorem log_run {α : Type} (d : Dialogue Statement (fun _ => Answer) α) (w : Wire) :
    ∃ l, l.Sublist ((d.exchanges (Registry.execute n) w).map (·.1)) ∧
      (d.run (Registry.execute n) w).2.2.log = w.2.log ++ l := by
  induction d generalizing w with
  | done a => exact ⟨[], List.nil_sublist _, (List.append_nil _).symm⟩
  | note x d ih => exact ih w
  | ask q next ih =>
    obtain ⟨l, hl, hlog⟩ := ih (Registry.execute n q w).1 (Registry.execute n q w).2
    rcases log_execute (n := n) q w with h | h
    · exact ⟨l, hl.cons q, by rw [Dialogue.run, hlog, h]⟩
    · refine ⟨q :: l, hl.cons_cons q, ?_⟩
      rw [Dialogue.run, hlog, h, List.append_assoc]
      rfl

namespace Deed

variable {e e' : Deed} {ds ds' : List Deed}

theorem after_alike (he : e.method? = e'.method?) (hw : Alike w w') :
    Alike (e.after c w) (e'.after c w') := by
  have hp := parallel_conversation he c (w.1.pool? c.datasource).isSome
  have hafter := hp.alike (t := .ofConfig c) (n := c.datasource) hw
  rw [Deed.after, Deed.after, spoken, spoken, ← hw.1]
  exact hafter

theorem log_after (c : PermissionConfig) (e : Deed) (w : Wire) :
    (e.sent c w).Sublist (e.asked c w) ∧ (e.after c w).2.log = w.2.log ++ e.sent c w := by
  obtain ⟨l, hl, hlog⟩ := log_run (n := c.datasource) (e.spoken c w) w
  have hsent : e.sent c w = l := by
    rw [sent, after, hlog, List.drop_left]
  rw [hsent]
  exact ⟨hl, hlog⟩

theorem sent_alike (he : e.method? = e'.method?) (hw : Alike w w') :
    (e.sent c w).map (·.text) = (e'.sent c w').map (·.text) := by
  have hlogs {v v' : Wire} (hv : Alike v v') : v.2.log.map bare = v'.2.log.map bare :=
    congrArg Server.log hv.2
  have hbefore := hlogs hw
  have hafter := hlogs (after_alike (c := c) he hw)
  rw [(log_after c e w).2, (log_after c e' w').2, List.map_append, List.map_append, hbefore,
    List.append_cancel_left_eq] at hafter
  have htexts := congrArg (List.map Statement.text) hafter
  rw [List.map_map, List.map_map] at htexts
  exact htexts

theorem asked_commands (c : PermissionConfig) (e : Deed) (w : Wire) :
    ∃ qs : List Command, e.asked c w = qs.map (·.statement (.ofConfig c)) ∧
      qs.map (·.kind) <+: plan e.method? ∧ ∀ q ∈ qs, q.Carries e := by
  have hp := parallel_conversation (e := e) rfl c (w.1.pool? c.datasource).isSome
  obtain ⟨hplan, hcarries⟩ := hp.exchanges
    (fun q => Registry.execute c.datasource (q.statement (.ofConfig c))) w
  refine ⟨_, ?_, hplan, hcarries⟩
  rw [asked, spoken, exchanges_statements, List.map_map]
  rfl

end Deed

theorem traffic_getElem? {ds : List Deed} {i : Nat} {x : Passage}
    (h : (traffic c ds w)[i]? = some x) :
    ds[i]? = some x.deed ∧ ∃ v, x.asked = x.deed.asked c v ∧ x.sent = x.deed.sent c v := by
  induction ds generalizing w i with
  | nil => cases h
  | cons d ds ih =>
    cases i with
    | zero =>
      cases h
      exact ⟨rfl, w, rfl, rfl⟩
    | succ i => exact ih h

theorem sent_traffic {ds ds' : List Deed} (hds : ds.map Deed.method? = ds'.map Deed.method?)
    (hw : Alike w w') : (traffic c ds w).map (·.sent.map (·.text)) =
      (traffic c ds' w').map (·.sent.map (·.text)) := by
  induction ds generalizing ds' w w' with
  | nil =>
    cases ds' with
    | nil => rfl
    | cons d' ds' => cases hds
  | cons d ds ih =>
    cases ds' with
    | nil => cases hds
    | cons d' ds' =>
      obtain ⟨hd, hds⟩ := List.cons.inj hds
      simp only [traffic, List.map_cons, Deed.sent_alike hd hw, ih hds (Deed.after_alike hd hw)]

theorem asked_text {ds : List Deed} {i j : Nat} {x : Passage} {q : Statement}
    (hx : (traffic c ds w)[i]? = some x) (hq : x.asked[j]? = some q) :
    ∃ k, (Deed.plan x.deed.method?)[j]? = some k ∧ q.text = k.template (.ofConfig c) := by
  obtain ⟨-, v, hasked, -⟩ := traffic_getElem? hx
  obtain ⟨qs, hqs, ⟨rest, hplan⟩, -⟩ := x.deed.asked_commands c v
  rw [hasked, hqs, List.getElem?_map, Option.map_eq_some_iff] at hq
  obtain ⟨cmd, hcmd, rfl⟩ := hq
  refine ⟨cmd.kind, ?_, rfl⟩
  obtain ⟨hj, -⟩ := List.getElem?_eq_some_iff.1 hcmd
  rw [← hplan, List.getElem?_append_left (by simpa using hj), List.getElem?_map, hcmd]
  rfl

theorem names_of_permissions {settings : Settings} (hc : settings.permissions = .ok c) :
    IsPlainName c.permissionsTable ∧ IsPlainName c.rolePermissionsTable ∧
      c.permissionsTable ≠ c.rolePermissionsTable := by
  simp only [Settings.permissions] at hc
  generalize settings.getOr _ _ _ = y at hc
  cases y with
  | error e => cases hc
  | ok d =>
    simp only [Except.bind] at hc
    exact PermissionConfig.names_of_valid hc

/-- With settings that load, two ways of doing the same kinds of things to other permissions and
roles ask for the same texts, place by place whatever each server answers, and from one server the
same texts are sent. Each is the template of its kind with the names of the tables, which are plain
and differ, and what the deeds are about stands in the numbered parameters. -/
theorem texts_fixed {settings : Settings} (hc : settings.permissions = .ok c) :
    (IsPlainName c.permissionsTable ∧ IsPlainName c.rolePermissionsTable ∧
      c.permissionsTable ≠ c.rolePermissionsTable) ∧
    (∀ ds w, ∀ x ∈ traffic c ds w, x.sent.Sublist x.asked ∧
      ∃ qs : List Command, x.asked = qs.map (·.statement (.ofConfig c)) ∧
        qs.map (·.kind) <+: Deed.plan x.deed.method? ∧
        ∀ q ∈ qs, q.Carries x.deed ∧ q.Binds (.ofConfig c)) ∧
    (∀ ds ds' w w', ds.map Deed.method? = ds'.map Deed.method? →
      ∀ (i j : Nat) (x x' : Passage) (q q' : Statement), (traffic c ds w)[i]? = some x →
        (traffic c ds' w')[i]? = some x' → x.asked[j]? = some q → x'.asked[j]? = some q' →
          q.text = q'.text) ∧
    ∀ ds ds' w, ds.map Deed.method? = ds'.map Deed.method? →
      (traffic c ds w).map (·.sent.map (·.text)) = (traffic c ds' w).map (·.sent.map (·.text)) := by
  have hnames := names_of_permissions hc
  refine ⟨hnames, ?_, ?_, ?_⟩
  · intro ds w x hx
    obtain ⟨i, hi⟩ := List.mem_iff_getElem?.1 hx
    obtain ⟨-, v, hasked, hsent⟩ := traffic_getElem? hi
    obtain ⟨qs, hqs, hplan, hcarries⟩ := x.deed.asked_commands c v
    refine ⟨?_, qs, hasked.trans hqs, hplan, ?_⟩
    · rw [hasked, hsent]
      exact (x.deed.log_after c v).1
    · intro q hq
      exact ⟨hcarries q hq, q.binds hnames.1 hnames.2.1⟩
  · intro ds ds' w w' hds i j x x' q q' hx hx' hq hq'
    obtain ⟨k, hk, htext⟩ := asked_text hx hq
    obtain ⟨k', hk', htext'⟩ := asked_text hx' hq'
    have hmethod : x.deed.method? = x'.deed.method? := by
      have hi := congrArg (·[i]?) hds
      simp only [List.getElem?_map, (traffic_getElem? hx).1, (traffic_getElem? hx').1,
        Option.map_some, Option.some.injEq] at hi
      exact hi
    rw [hmethod, hk'] at hk
    rw [htext, htext', Option.some.inj hk]
  · intro ds ds' w hds
    exact sent_traffic hds ⟨rfl, rfl⟩

theorem texts_fixed_hostile :
    let settings : Settings :=
      ⟨some [("permissions", .obj [("permissions_table", .str "app_permissions")])]⟩
    let c : PermissionConfig := ⟨"PERMISSIONS_DB", true, "app_permissions", "role_permissions"⟩
    let p : Permission := ⟨"x'); DROP TABLE app_permissions; --", "$1"⟩
    let ds (p : Permission) : List Deed :=
      [.call (.grant p ⟨"ops", "Operators"⟩), .call (.delete p)]
    let d : DataSourceConfig := .new "PERMISSIONS_DB" "postgres://db.local/app" true
    let w : Wire := (⟨[(d.name, .idle d)]⟩, ⟨true, [], [.table ⟨[.int 7], 0⟩,
      .table ⟨[], 1⟩, .fails "23503" "still referenced", .table ⟨[.int 1], 0⟩], []⟩)
    settings.permissions = .ok c ∧
      (traffic c (ds p) w).map (·.sent.map (·.params)) =
        [[[.text p.resource, .text p.action], [.int 7, .text "ops"]],
          [[.text p.resource, .text p.action], [.text p.resource, .text p.action]]] ∧
      (traffic c (ds p) w).map (·.sent.map (·.text)) =
        (traffic c (ds ⟨"dashboard-1", "view"⟩) w).map (·.sent.map (·.text)) := by
  intro settings c p ds d w
  have hc : settings.permissions = .ok c := by decide
  have hds : (ds p).map Deed.method? = (ds ⟨"dashboard-1", "view"⟩).map Deed.method? := rfl
  obtain ⟨-, -, -, hsame⟩ := texts_fixed hc
  refine ⟨hc, by decide, hsame _ _ w hds⟩

end

end AccessControl.Postgres
