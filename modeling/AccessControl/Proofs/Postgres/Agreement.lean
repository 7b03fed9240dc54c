import AccessControl.Postgres.Store
import AccessControl.Proofs.Postgres.Execution
import AccessControl.Proofs.Postgres.Representation

/-!
# The store in tables answers as the store in memory

Each call on the store in tables, held with any server that does what the texts of its statements
mean, answers what the store in memory answers and leaves tables that represent the store that is
left. So two stores that start empty answer alike for ever.
-/

namespace AccessControl

def Text.FitsColumn (x : String) : Prop := x.length ≤ 255 ∧ '\x00' ∉ x.toList

instance (x : String) : Decidable (Text.FitsColumn x) := inferInstanceAs (Decidable (_ ∧ _))

namespace StoreCall

def roleIds : StoreCall → List String
  | grant _ r => [r.id]
  | revoke _ r => [r.id]
  | hasAny roles _ => roles.map (·.id)
  | _ => []

structure Fits (c : StoreCall) : Prop where
  resource : Text.FitsColumn c.permission.resource
  action : Text.FitsColumn c.permission.action
  roleIds : ∀ x ∈ c.roleIds, Text.FitsColumn x

def answers {σ : Type} (store : (c : StoreCall) → σ → c.Result × σ) :
    List StoreCall → σ → List (Dialogue.Exchange Result)
  | [], _ => []
  | c :: cs, s => ⟨c, (store c s).1⟩ :: answers store cs (store c s).2

/-- Stores in related states that answer each call alike, and stay related, answer alike for
ever. -/
theorem answers_eq {σ τ : Type} {f : (c : StoreCall) → σ → c.Result × σ}
    {g : (c : StoreCall) → τ → c.Result × τ} {P : StoreCall → Prop} {R : σ → τ → Prop}
    (hstep : ∀ {c s t}, P c → R s t → (f c s).1 = (g c t).1 ∧ R (f c s).2 (g c t).2)
    {cs : List StoreCall} (hcs : ∀ c ∈ cs, P c) {s : σ} {t : τ} (hst : R s t) :
    answers f cs s = answers g cs t := by
  induction cs generalizing s t with
  | nil => rfl
  | cons c cs ih =>
    obtain ⟨hc, hcs⟩ := List.forall_mem_cons.1 hcs
    obtain ⟨ha, hr⟩ := hstep hc hst
    simp only [answers, ha, ih hcs hr]

end StoreCall

namespace Postgres

open Sql

/-- What stores in two tables send, and nothing else that is written in SQL. -/
def Issued (t : Tables) (q : Statement) : Prop := ∃ c : Command, q = c.statement t

def Fits (q : Statement) : Prop :=
  ∀ p ∈ q.params, match p with
    | .int _ => True
    | .text x => Text.FitsColumn x
    | .texts xs => ∀ x ∈ xs, Text.FitsColumn x

def Command.Fits (t : Tables) (c : Command) : Prop := Postgres.Fits (c.statement t)

theorem Command.fits_of_params {t : Tables} {c : Command} {k : StoreCall} (hk : k.Fits)
    (hc : c.params = [.text k.permission.resource, .text k.permission.action]) : c.Fits t := by
  simpa [Fits, Postgres.Fits, statement, hc] using ⟨hk.resource, hk.action⟩

theorem Serves.executes {σ : Type} {P : Statement → Prop} {t : Tables}
    {server : Statement → σ → Answer × σ} {view : σ → Rows} (hs : Serves P t server view)
    (ht : t.Apart) {c : Command} (hc : P (c.statement t)) (s : σ) :
    (view s).Executes c (server (c.statement t) s).1 (view (server (c.statement t) s).2) :=
  hs _ s _ hc (Command.meaning?_statement ht c)

/-- A peer that executes the commands whose values columns can hold. -/
def Honours {σ : Type} (t : Tables) (peer : Command → σ → Answer × σ) (view : σ → Rows) : Prop :=
  ∀ c s, c.Fits t → (view s).Executes c (peer c s).1 (view (peer c s).2)

section

variable {σ α : Type} {t : Tables} {peer : Command → σ → Answer × σ} {view : σ → Rows} {st : Store}
  {s : σ}

theorem run_ask (c : Command) (next : Answer → Conversation α) :
    Dialogue.run peer (.ask c next) s = (next (peer c s).1).run peer (peer c s).2 := rfl

theorem run_perform (c : StoreCall) : (perform c).run peer s = (body c).run peer s := by
  cases c <;> rfl

theorem run_statements {server : Statement → σ → Answer × σ} (d : Conversation α) :
    (statements t d).run server s = d.run (fun c => server (c.statement t)) s :=
  Dialogue.run_refine _ server d s

theorem readRows_text (xs : List String) :
    Table.all.readRows Value.text? (xs.map .text) = .ok xs := by
  induction xs with
  | nil => rfl
  | cons x xs ih => simp [Table.all.readRows, Value.text?, ih]

def Follows (view : σ → Rows) (st : Store) (c : StoreCall) (o : c.Result × σ) : Prop :=
  o.1 = (Store.apply c st).1 ∧ (view o.2).Represents (Store.apply c st).2

variable {p : Permission} {r : Role}

theorem run_withId_none {next : Int → Conversation (Except StoreError α)}
    (hh : Honours t peer view) (hr : (view s).Represents st) (hp : st.roles? p = none)
    (hc : (Command.findPermission p).Fits t) :
    ∃ s', (withId p next).run peer s = (.error (.notFound p), s') ∧ (view s').Represents st := by
  obtain ⟨hv, ha⟩ := hr.findPermission (hh _ s hc)
  rw [hp] at ha
  obtain ⟨n, ha⟩ := ha
  refine ⟨(peer (.findPermission p) s).2, ?_, hv ▸ hr⟩
  rw [withId, run_ask, ha]
  rfl

theorem run_withId_some {next : Int → Conversation (Except StoreError α)} {rs : RoleSet}
    (hh : Honours t peer view) (hr : (view s).Represents st) (hp : st.roles? p = some rs)
    (hc : (Command.findPermission p).Fits t) :
    ∃ id s', (withId p next).run peer s = (next id).run peer s' ∧
      ⟨id, p⟩ ∈ (view s').permissions ∧ (view s').Represents st := by
  obtain ⟨hv, ha⟩ := hr.findPermission (hh _ s hc)
  rw [hp] at ha
  obtain ⟨id, hid, n, ha⟩ := ha
  refine ⟨id, (peer (.findPermission p) s).2, ?_, hv ▸ hid, hv ▸ hr⟩
  rw [withId, run_ask, ha]
  rfl

theorem follows_insert (hh : Honours t peer view) (hr : (view s).Represents st)
    (hc : (StoreCall.insert p).Fits) : Follows view st (.insert p) ((insert p).run peer s) := by
  have hf : (Command.insertPermission p).Fits t := Command.fits_of_params hc rfl
  have h := hr.insertPermission (hh _ s hf)
  rw [insert, run_ask]
  cases hp : st.roles? p with
  | none =>
    rw [hp] at h
    obtain ⟨⟨vs, ha⟩, hr'⟩ := h
    simpa [Follows, Store.apply, hp, ha, Dialogue.run] using hr'
  | some rs =>
    rw [hp] at h
    obtain ⟨⟨text, ha⟩, hv⟩ := h
    simpa [Follows, Store.apply, hp, ha, Failure.hasCode, Dialogue.run] using hv ▸ hr

theorem run_stillGranted {rs : RoleSet} (hh : Honours t peer view) (hr : (view s).Represents st)
    (hp : st.roles? p = some rs) (hc : (Command.countGrants p).Fits t) :
    ∃ s', (stillGranted p).run peer s = (.error (.stillGranted p rs.length), s') ∧
      (view s').Represents st := by
  obtain ⟨hv, n, ha⟩ := hr.countGrants hp (hh _ s hc)
  refine ⟨(peer (.countGrants p) s).2, ?_, hv ▸ hr⟩
  have hcount : reportedCount rs.length = rs.length := by simp [reportedCount]
  rw [stillGranted, run_ask, ha, ← hcount]
  rfl

theorem follows_delete (hh : Honours t peer view) (hr : (view s).Represents st)
    (hc : (StoreCall.delete p).Fits) : Follows view st (.delete p) ((delete p).run peer s) := by
  have hf : (Command.deletePermission p).Fits t := Command.fits_of_params hc rfl
  have h := hr.deletePermission (hh _ s hf)
  rw [delete, run_ask]
  split at h
  · rename_i hp
    obtain ⟨⟨vs, ha⟩, hr'⟩ := h
    simpa [Follows, Store.apply, hp, ha, Dialogue.run] using hr'
  · rename_i hp
    obtain ⟨⟨vs, ha⟩, hr'⟩ := h
    simpa [Follows, Store.apply, hp, ha, Dialogue.run] using hr'
  · rename_i role rs hp
    obtain ⟨⟨text, ha⟩, hv⟩ := h
    -- The refusal does not say how many grants are in the way, so they are counted.
    obtain ⟨s', hs, hr'⟩ := run_stillGranted hh (hv ▸ hr) hp hf
    simpa [Follows, Store.apply, hp, ha, Failure.hasCode, hs] using hr'

theorem follows_grant (hh : Honours t peer view) (hr : (view s).Represents st)
    (hc : (StoreCall.grant p r).Fits) : Follows view st (.grant p r) ((grant p r).run peer s) := by
  have hf : (Command.findPermission p).Fits t := Command.fits_of_params hc rfl
  have hg (id : Int) : (Command.insertGrant id r.id).Fits t := by
    simpa [Command.Fits, Fits, Command.statement, Command.params] using
      hc.roleIds r.id (List.mem_singleton_self _)
  cases hp : st.roles? p with
  | none =>
    obtain ⟨s', hs, hr'⟩ := run_withId_none hh hr hp hf
    rw [grant, hs]
    simpa [Follows, Store.apply, hp] using hr'
  | some rs =>
    obtain ⟨id, s', hs, hid, hr'⟩ := run_withId_some hh hr hp hf
    obtain ⟨⟨n, vs, ha⟩, hi⟩ := hr'.insertGrant hid hp (hh _ s' (hg id))
    rw [grant, hs, run_ask, ha]
    simpa [Follows, Store.apply, hp, Dialogue.run] using hi

theorem follows_revokeAll (hh : Honours t peer view) (hr : (view s).Represents st)
    (hc : (StoreCall.revokeAll p).Fits) :
    Follows view st (.revokeAll p) ((revokeAll p).run peer s) := by
  have hf : (Command.deleteGrants p).Fits t := Command.fits_of_params hc rfl
  obtain ⟨⟨n, vs, ha⟩, hr'⟩ := hr.deleteGrants (hh _ s hf)
  rw [revokeAll, run_ask, ha]
  exact ⟨rfl, hr'⟩

theorem follows_revoke (hh : Honours t peer view) (hr : (view s).Represents st)
    (hc : (StoreCall.revoke p r).Fits) :
    Follows view st (.revoke p r) ((revoke p r).run peer s) := by
  have hf : (Command.deleteGrant p r.id).Fits t := by
    simpa [Command.Fits, Fits, Command.statement, Command.params] using
      ⟨hc.resource, hc.action, hc.roleIds r.id (List.mem_singleton_self _)⟩
  obtain ⟨⟨n, vs, ha⟩, hr'⟩ := hr.deleteGrant (hh _ s hf)
  rw [revoke, run_ask, ha]
  cases hp : st.roles? p with
  | none =>
    rw [hp] at hr'
    simpa [Follows, Store.apply, hp, Dialogue.run] using hr'
  | some rs =>
    rw [hp] at hr'
    simpa [Follows, Store.apply, hp, Dialogue.run] using hr'

theorem follows_hasAny {roles : List Role} (hh : Honours t peer view) (hr : (view s).Represents st)
    (hc : (StoreCall.hasAny roles p).Fits) :
    Follows view st (.hasAny roles p) ((hasAny roles p).run peer s) := by
  have hf : (Command.holdsAny p (roles.map (·.id))).Fits t := by
    simpa [Command.Fits, Fits, Command.statement, Command.params] using
      ⟨hc.resource, hc.action, List.forall_mem_map.1 hc.roleIds⟩
  obtain ⟨hv, n, ha⟩ := hr.holdsAny (hh _ s hf)
  have hr' := hv ▸ hr
  rw [hasAny, run_ask, ha]
  cases hp : st.roles? p with
  | none =>
    simpa [Follows, Store.apply, hp, Except.bind, Table.required, Value.bool?, Dialogue.run]
      using hr'
  | some rs =>
    simpa [Follows, Store.apply, hp, Except.bind, Table.required, Value.bool?, Dialogue.run,
      Function.comp_def] using hr'

theorem follows_grantedRoles (hh : Honours t peer view) (hr : (view s).Represents st)
    (hc : (StoreCall.grantedRoles p).Fits) :
    Follows view st (.grantedRoles p) ((grantedRoles p).run peer s) := by
  have hf : (Command.findPermission p).Fits t := Command.fits_of_params hc rfl
  have hl (id : Int) : (Command.listRoles id).Fits t := by
    simp [Command.Fits, Fits, Command.statement, Command.params]
  cases hp : st.roles? p with
  | none =>
    obtain ⟨s', hs, hr'⟩ := run_withId_none hh hr hp hf
    rw [grantedRoles, hs]
    simpa [Follows, Store.apply, hp] using hr'
  | some rs =>
    obtain ⟨id, s', hs, hid, hr'⟩ := run_withId_some hh hr hp hf
    obtain ⟨hv, n, ha⟩ := hr'.listRoles hid hp (hh _ s' (hl id))
    have hread : Table.all Value.text? ⟨rs.map .text, n⟩ = .ok rs := readRows_text rs
    rw [grantedRoles, hs, run_ask, ha]
    simpa [Follows, Store.apply, hp, Except.bind, hread, Dialogue.run] using hv ▸ hr'

theorem follows (hh : Honours t peer view) (hr : (view s).Represents st) {c : StoreCall}
    (hc : c.Fits) : Follows view st c ((perform c).run peer s) := by
  rw [run_perform]
  cases c with
  | insert p => exact follows_insert hh hr hc
  | delete p => exact follows_delete hh hr hc
  | grant p r => exact follows_grant hh hr hc
  | revokeAll p => exact follows_revokeAll hh hr hc
  | revoke p r => exact follows_revoke hh hr hc
  | hasAny roles p => exact follows_hasAny hh hr hc
  | grantedRoles p => exact follows_grantedRoles hh hr hc

/-- From empty tables on, whatever the ids that rows get, calls answer what they answer on a store
in memory that starts empty. -/
theorem answers_eq_memory {server : Statement → σ → Answer × σ} (ht : t.Apart)
    (hs : Serves (fun q => Issued t q ∧ Fits q) t server view) {used : List Int}
    (hempty : view s = ⟨[], [], used⟩) {cs : List StoreCall} (hcs : ∀ c ∈ cs, c.Fits) :
    StoreCall.answers (fun c => (statements t (perform c)).run server) cs s =
      StoreCall.answers Store.apply cs .empty := by
  have hh : Honours t (fun c => server (c.statement t)) view := fun c s hc =>
    hs.executes ht ⟨⟨c, rfl⟩, hc⟩ s
  refine StoreCall.answers_eq (R := fun s st => (view s).Represents st) (fun {c s st} hc hr => ?_)
    hcs (hempty ▸ Rows.represents_empty used)
  rw [run_statements]
  exact follows hh hr hc

end

theorem answers_eq_memory_held :
    let t := Tables.ofConfig .standard
    let p : Permission := ⟨"dashboard-1", "view"⟩
    let cs : List StoreCall := [.insert p, .grant p ⟨"ops", "Ops"⟩, .grant p ⟨"dev", "Dev"⟩,
      .grantedRoles p, .delete p, .revokeAll p, .delete p, .insert p, .hasAny [⟨"ops", ""⟩] p]
    (∀ c ∈ cs, c.Fits) ∧
      StoreCall.answers (fun c => (statements t (perform c)).run (Rows.serve t)) cs ⟨[], [], []⟩ =
        [⟨.insert p, .ok ()⟩, ⟨.grant p ⟨"ops", "Ops"⟩, .ok ()⟩,
          ⟨.grant p ⟨"dev", "Dev"⟩, .ok ()⟩, ⟨.grantedRoles p, .ok ["dev", "ops"]⟩,
          ⟨.delete p, .error (.stillGranted p 2)⟩, ⟨.revokeAll p, .ok ()⟩, ⟨.delete p, .ok ()⟩,
          ⟨.insert p, .ok ()⟩, ⟨.hasAny [⟨"ops", ""⟩] p, .ok false⟩] := by
  intro t p cs
  have hfits : ∀ c ∈ cs, c.Fits := by
    simp only [cs, List.forall_mem_cons, List.not_mem_nil, false_implies, implies_true, and_true]
    refine ⟨?_, ?_, ?_, ?_, ?_, ?_, ?_, ?_, ?_⟩ <;> exact ⟨by decide, by decide, by decide⟩
  have h := answers_eq_memory standard_apart (serve_serves _ t) (s := ⟨[], [], []⟩) rfl hfits
  exact ⟨hfits, h.trans rfl⟩

end Postgres

end AccessControl
