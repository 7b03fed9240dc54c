import AccessControl.Proofs.Session.Run
import AccessControl.Proofs.Session.Surroundings

/-!
# Sessions over a store in memory

A session whose store is in memory and whose opens and calls all succeed shows a ledger: the store,
the provider that each authority is bound to, and the directories. The ledger takes the same steps,
without conversations and without opening anything, and answers the same.
-/

namespace AccessControl

def Store.report (k : StoreCall) (st : Store) : Except AuthorityError k.Answer × Store :=
  let (r, st) := Store.apply k st
  (r.mapError .store, st)

@[simp]
theorem Store.report_snd (k : StoreCall) (st : Store) :
    (st.report k).2 = (Store.apply k st).2 := rfl

namespace Operation

/-- What an operation answers over a store that never fails, and the store after it. `lookup` is
what a check learns about a user. -/
def onStore (lookup : String → Except AuthorityError (List Group)) :
    (o : Operation) → Store → o.Result × Store
  | .add p, st => st.report (.insert p)
  | .delete p, st => (Store.apply (.revokeAll p) st).2.report (.delete p)
  | .grant p r, st => st.report (.grant p r)
  | .revokeAll p, st => st.report (.revokeAll p)
  | .revoke p r, st => st.report (.revoke p r)
  | .grantedRoles p, st => st.report (.grantedRoles p)
  | .check user p, st =>
    match lookup user with
    | .error e => (.error e, st)
    | .ok gs => if gs.isEmpty then (.ok false, st) else st.report (.hasAny (Role.ofGroups gs) p)
  | .bind _, st => (.ok (), st)
  | .unbind, st => (.ok (), st)

def rebinds : Operation → Option ProviderId → Option ProviderId
  | .bind i, _ => some i
  | .unbind, _ => none
  | _, bound => bound

end Operation

structure Ledger where
  store : Store
  bindings : List (Option ProviderId)
  directories : List Directory

namespace Ledger

open Session (Step Event)

def lookup (ds : List Directory) (bound : Option ProviderId) (user : String) :
    Except AuthorityError (List Group) :=
  match bound with
  | none => .error (.configuration "no identity provider is bound")
  | some i =>
    match ds[i]? with
    | none => .error (.roleResolution user (.unavailable "no such provider"))
    | some d => (d.lookupGroups user).mapError (.roleResolution user)

def step : Step → Ledger → Option (Event × Ledger)
  | .perform n o, m =>
    if o.fits m.directories.length then
      match m.bindings[n]? with
      | none => none
      | some bound =>
        let (r, st) := o.onStore (lookup m.directories bound) m.store
        some (⟨.perform n o, r⟩, ⟨st, m.bindings.set n (o.rebinds bound), m.directories⟩)
    else none
  | .give d, m =>
    some (⟨.give d, m.directories.length⟩, { m with directories := m.directories ++ [d] })
  | .setGroups i user gs, m =>
    if i < m.directories.length then
      some (⟨.setGroups i user gs, ()⟩,
        { m with directories := m.directories.modify i (·.set user gs) })
    else none
  | .removeUser i user, m =>
    if i < m.directories.length then
      some (⟨.removeUser i user, ()⟩,
        { m with directories := m.directories.modify i (·.remove user) })
    else none

def run (xs : List Step) (m : Ledger) : Option (List Event × Ledger) := runSteps step xs m

end Ledger

/-- Surroundings with a store in memory, directories, and no fault scheduled. -/
structure Surroundings.Calm (st : Store) (ds : List Directory) (s : Surroundings) : Prop where
  source : s.source = .memory st
  providers : s.providers = ds.map .directory
  opens : ∀ f ∈ s.openFaults, f = none
  calls : s.callFaults = []

structure Authority.Configured (a : Authority) : Prop where
  source : a.hasSource = true
  config : ∃ c, a.config = some c

structure Session.Shows (m : Ledger) (s : Session) : Prop where
  calm : s.surroundings.Calm m.store m.directories
  configured : ∀ a ∈ s.authorities, a.Configured
  bindings : s.authorities.map (·.provider) = m.bindings

namespace Surroundings.Calm

variable {st : Store} {ds : List Directory} {s : Surroundings}

theorem undisturbed (hs : s.Calm st ds) : s.Undisturbed st := ⟨hs.source, hs.opens, hs.calls⟩

theorem answerOpen (hs : s.Calm st ds) (c : PermissionConfig) :
    (s.answerOpen c).1 = .ok () ∧ (s.answerOpen c).2.Calm st ds := by
  obtain ⟨hr, hu⟩ := hs.undisturbed.answerOpen c
  obtain ⟨source, he⟩ := answerOpen_snd c s
  refine ⟨hr, hu.source, ?_, hu.opens, hu.calls⟩
  rw [he, hs.providers]

theorem answerCall (hs : s.Calm st ds) (own : PermissionConfig) (k : StoreCall) :
    (s.answerCall own k).1 = (Store.apply k st).1 ∧
      (s.answerCall own k).2.Calm (Store.apply k st).2 ds := by
  obtain ⟨hr, hu⟩ := hs.undisturbed.answerCall own k
  obtain ⟨source, he⟩ := answerCall_snd own k s
  refine ⟨hr, hu.source, ?_, hu.opens, hu.calls⟩
  rw [he, hs.providers]

theorem answerGroups (hs : s.Calm st ds) (i : ProviderId) (user : String) :
    s.answerGroups i user =
      (match ds[i]? with
        | none => .error (.unavailable "no such provider")
        | some d => d.lookupGroups user, s) := by
  have hp : s.providers[i]? = ds[i]?.map .directory := by rw [hs.providers, List.getElem?_map]
  simp only [Surroundings.answerGroups, hp]
  cases hd : ds[i]? with
  | none => rfl
  | some d =>
    rw [hd] at hp
    obtain ⟨hi, hg⟩ := List.getElem?_eq_some_iff.1 hp
    have hset : s.providers.set i (.directory d) = s.providers := by
      rw [← hg]
      exact List.set_getElem_self hi
    simp only [Option.map_some, Provider.lookup, hset]

end Surroundings.Calm

namespace Authority

variable {own : PermissionConfig} {a : Authority} {st : Store} {ds : List Directory}
  {s : Surroundings} {α : Type}

/-- A conversation with calm surroundings gives a result and leaves them calm over a store. -/
structure Gives (own : PermissionConfig) (ds : List Directory) (d : Conversation α)
    (s : Surroundings) (r : α × Store) : Prop where
  result : (d.run (Surroundings.answer own) s).1 = r.1
  calm : (d.run (Surroundings.answer own) s).2.Calm r.2 ds

structure Ends (own : PermissionConfig) (ds : List Directory) (d : Conversation (α × Authority))
    (s : Surroundings) (r : α × Store) (bound : Option ProviderId) : Prop where
  result : (d.run (Surroundings.answer own) s).1.1 = r.1
  configured : (d.run (Surroundings.answer own) s).1.2.Configured
  provider : (d.run (Surroundings.answer own) s).1.2.provider = bound
  calm : (d.run (Surroundings.answer own) s).2.Calm r.2 ds

theorem Configured.ready (ha : a.Configured) (own : PermissionConfig) (hs : s.Calm st ds) :
    ∃ a' s', a.ready.run (Surroundings.answer own) s = (.ok a', s') ∧ a'.Configured ∧
      a'.provider = a.provider ∧ s'.Calm st ds := by
  obtain ⟨c, hc⟩ := ha.config
  by_cases ho : a.opened = true
  · refine ⟨a, s, ?_, ha, rfl, hs⟩
    simp [Authority.ready, ho, Dialogue.run]
  · obtain ⟨hr, hcalm⟩ := hs.answerOpen c
    refine ⟨{ a with opened := true }, (s.answerOpen c).2, ?_, ⟨ha.source, c, hc⟩, rfl, hcalm⟩
    simp [Authority.ready, ho, ha.source, hc, Dialogue.run, Surroundings.answer, hr]

theorem Configured.withStore (ha : a.Configured) (hs : s.Calm st ds)
    {d : Conversation (Except AuthorityError α)} {r : Except AuthorityError α × Store}
    (hd : ∀ s : Surroundings, s.Calm st ds → Gives own ds d s r) :
    Ends own ds (a.withStore d) s r a.provider := by
  obtain ⟨a', s', hr, ha', hp, hs'⟩ := ha.ready own hs
  have hg := hd s' hs'
  have hrun : (a.withStore d).run (Surroundings.answer own) s =
      (((d.run (Surroundings.answer own) s').1, a'), (d.run (Surroundings.answer own) s').2) := by
    simp only [Authority.withStore, Dialogue.run_bind, hr, Dialogue.run_map]
  constructor <;> rw [hrun]
  · exact hg.result
  · exact ha'
  · exact hp
  · exact hg.calm

theorem gives_call (hs : s.Calm st ds) (k : StoreCall) : Gives own ds (call k) s (st.report k) := by
  obtain ⟨hr, hcalm⟩ := hs.answerCall own k
  refine ⟨?_, hcalm⟩
  simp only [call, Dialogue.run, Surroundings.answer, Store.report, hr]

theorem gives_deletion (hs : s.Calm st ds) (p : Permission) :
    Gives own ds (deletion p) s ((Store.apply (.revokeAll p) st).2.report (.delete p)) := by
  obtain ⟨hr, hcalm⟩ := hs.answerCall own (.revokeAll p)
  obtain ⟨hr', hcalm'⟩ := hcalm.answerCall own (.delete p)
  have hok : (s.answerCall own (.revokeAll p)).1 = .ok () := hr
  generalize hd : (s.answerCall own (.revokeAll p)).2 = s' at hr' hcalm'
  have hrun : (deletion p).run (Surroundings.answer own) s =
      ((s'.answerCall own (.delete p)).1.mapError .store, (s'.answerCall own (.delete p)).2) := by
    simp only [deletion, Dialogue.run, Surroundings.answer, hok, hd]
    cases (s'.answerCall own (.delete p)).1 <;> rfl
  constructor <;> rw [hrun]
  · simp only [Store.report, hr']
  · exact hcalm'

theorem gives_decision (hs : s.Calm st ds) (user : String) (p : Permission) (roles : List Role) :
    Gives own ds (decision user p roles) s (st.report (.hasAny roles p)) := by
  obtain ⟨hr, hcalm⟩ := hs.answerCall own (.hasAny roles p)
  have hrun : (decision user p roles).run (Surroundings.answer own) s =
      ((s.answerCall own (.hasAny roles p)).1.mapError .store,
        (s.answerCall own (.hasAny roles p)).2) := by
    simp only [decision, Dialogue.run, Surroundings.answer]
    cases (s.answerCall own (.hasAny roles p)).1 <;> rfl
  constructor <;> rw [hrun]
  · simp only [Store.report, hr]
  · exact hcalm

theorem Ends.note {d : Conversation (α × Authority)} {r : α × Store} {bound : Option ProviderId}
    (hd : Ends own ds d s r bound) (n : Note) : Ends own ds (.note n d) s r bound :=
  ⟨hd.result, hd.configured, hd.provider, hd.calm⟩

theorem Ends.groups {i : ProviderId} {user : String} {r : α × Store} {bound : Option ProviderId}
    {next : Except IdentityError (List Group) → Conversation (α × Authority)}
    {gs : Except IdentityError (List Group)} (hg : s.answerGroups i user = (gs, s))
    (hd : Ends own ds (next gs) s r bound) :
    Ends own ds (.ask (.groups i user) next) s r bound := by
  have hrun : Dialogue.run (Surroundings.answer own) (.ask (.groups i user) next) s =
      (next gs).run (Surroundings.answer own) s := by
    simp only [Dialogue.run, Surroundings.answer, hg]
  constructor <;> rw [hrun]
  · exact hd.result
  · exact hd.configured
  · exact hd.provider
  · exact hd.calm

theorem Configured.checking (ha : a.Configured) (hs : s.Calm st ds) (user : String)
    (p : Permission) :
    Ends own ds (a.checking user p) s
      ((Operation.check user p).onStore (Ledger.lookup ds a.provider) st) a.provider := by
  have hdone (r : Except AuthorityError Bool) : Ends own ds (.done (r, a)) s (r, st) a.provider :=
    ⟨rfl, ha, rfl, hs⟩
  have hdecide (gs : List Group) :
      Ends own ds (a.withStore (decision user p (Role.ofGroups gs))) s
        (st.report (.hasAny (Role.ofGroups gs) p)) a.provider :=
    ha.withStore hs fun s hs => gives_decision hs user p (Role.ofGroups gs)
  unfold Authority.checking
  generalize a.provider = bound at hdone hdecide ⊢
  cases bound with
  | none => exact hdone _
  | some i =>
    simp only [Operation.onStore, Ledger.lookup]
    refine Ends.groups (hs.answerGroups i user) ?_
    cases ds[i]? with
    | none => exact (hdone _).note _
    | some d =>
      dsimp only
      cases d.lookupGroups user with
      | error e => exact (hdone _).note _
      | ok gs =>
        refine Ends.note ?_ _
        simp only [mapError_ok]
        split
        · exact (hdone _).note _
        · exact hdecide gs

theorem Configured.perform (ha : a.Configured) (own : PermissionConfig) (hs : s.Calm st ds)
    (o : Operation) :
    Ends own ds (a.perform o) s (o.onStore (Ledger.lookup ds a.provider) st)
      (o.rebinds a.provider) := by
  cases o with
  | add p => exact (ha.withStore hs fun s hs => gives_call hs _).note _
  | delete p => exact (ha.withStore hs fun s hs => gives_deletion hs p).note _
  | grant p r => exact (ha.withStore hs fun s hs => gives_call hs _).note _
  | revokeAll p => exact (ha.withStore hs fun s hs => gives_call hs _).note _
  | revoke p r => exact (ha.withStore hs fun s hs => gives_call hs _).note _
  | grantedRoles p => exact ha.withStore hs fun s hs => gives_call hs _
  | check user p => exact ha.checking hs user p
  | bind i => exact ⟨rfl, ⟨ha.source, ha.config⟩, rfl, hs⟩
  | unbind => exact ⟨rfl, ⟨ha.source, ha.config⟩, rfl, hs⟩

end Authority

namespace Session

def fresh (c : PermissionConfig) (bindings : List (Option ProviderId)) (ds : List Directory) :
    Session :=
  ⟨bindings.map (Authority.new true (some c)), ⟨.memory .empty, ds.map .directory, [], [], 0, []⟩⟩

theorem fresh_shows (c : PermissionConfig) (bindings : List (Option ProviderId))
    (ds : List Directory) : (fresh c bindings ds).Shows ⟨.empty, bindings, ds⟩ := by
  refine ⟨⟨rfl, rfl, fun f hf => absurd hf List.not_mem_nil, rfl⟩, fun a ha => ?_, ?_⟩
  · obtain ⟨b, -, rfl⟩ := List.mem_map.1 ha
    exact ⟨rfl, c, rfl⟩
  · simp [fresh, Function.comp_def, Authority.new]

theorem Shows.providers_length {m : Ledger} {s : Session} (hs : s.Shows m) :
    s.surroundings.providers.length = m.directories.length := by
  rw [hs.calm.providers, List.length_map]

theorem Shows.changeDirectoryAt {m : Ledger} {s : Session} (hs : s.Shows m) (i : ProviderId)
    (f : Directory → Directory) :
    (s.changeDirectoryAt i f).Shows { m with directories := m.directories.modify i f } := by
  refine ⟨⟨hs.calm.source, ?_, hs.calm.opens, hs.calm.calls⟩, hs.configured, hs.bindings⟩
  simp only [Session.changeDirectoryAt, hs.calm.providers]
  apply List.ext_getElem?
  intro j
  simp only [List.getElem?_modify, List.getElem?_map]
  split
  · cases m.directories[j]? <;> rfl
  · simp

theorem Shows.getElem?_bindings {m : Ledger} {s : Session} (hs : s.Shows m) (n : Nat) :
    m.bindings[n]? = s.authorities[n]?.map (·.provider) := by
  rw [← hs.bindings, List.getElem?_map]

theorem Shows.perform {m : Ledger} {s : Session} {n : Nat} {bound : Option ProviderId}
    (hs : s.Shows m) (hn : m.bindings[n]? = some bound) (o : Operation) :
    ∃ s', s.perform n o = some ((o.onStore (Ledger.lookup m.directories bound) m.store).1, s') ∧
      s'.Shows ⟨(o.onStore (Ledger.lookup m.directories bound) m.store).2,
        m.bindings.set n (o.rebinds bound), m.directories⟩ := by
  rw [hs.getElem?_bindings n, Option.map_eq_some_iff] at hn
  obtain ⟨a, hn, rfl⟩ := hn
  have ha := hs.configured a (List.mem_of_getElem? hn)
  have he := ha.perform a.own hs.calm o
  simp only [Session.perform, Session.converse, hn, he.result]
  refine ⟨_, rfl, he.calm, fun a' hm => ?_, ?_⟩
  · rcases List.mem_or_eq_of_mem_set hm with hm | rfl
    · exact hs.configured a' hm
    · exact he.configured
  · simp only [List.map_set, hs.bindings, he.provider]

theorem step_agrees (x : Step) {s : Session} {m : Ledger} (hs : s.Shows m) :
    Agree (fun s m => s.Shows m) (s.step x) (m.step x) := by
  have hlen := hs.providers_length
  cases x with
  | perform n o =>
    simp only [Session.step, Ledger.step, hlen]
    split
    · cases hn : m.bindings[n]? with
      | none =>
        rw [hs.getElem?_bindings n, Option.map_eq_none_iff] at hn
        simp only [Session.perform, Session.converse, hn]
        exact .none
      | some bound =>
        obtain ⟨s', hp, hs'⟩ := hs.perform hn o
        rw [hp]
        exact .some ⟨rfl, hs'⟩
    · exact .none
  | give d =>
    refine .some ⟨?_, ⟨hs.calm.source, ?_, hs.calm.opens, hs.calm.calls⟩, hs.configured,
      hs.bindings⟩
    · simp only [hlen]
    · simp only [hs.calm.providers, List.map_append, List.map_cons, List.map_nil]
  | setGroups i user gs =>
    simp only [Session.step, Ledger.step, hlen]
    split
    · exact .some ⟨rfl, hs.changeDirectoryAt i _⟩
    · exact .none
  | removeUser i user =>
    simp only [Session.step, Ledger.step, hlen]
    split
    · exact .some ⟨rfl, hs.changeDirectoryAt i _⟩
    · exact .none

theorem run_agrees (xs : List Step) {s : Session} {m : Ledger} (hs : s.Shows m) :
    Agree (fun s m => s.Shows m) (s.run xs) (m.run xs) :=
  runSteps_agree (fun x _ _ => step_agrees x) xs hs

end Session

end AccessControl
