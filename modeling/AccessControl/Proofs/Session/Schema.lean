import AccessControl.Proofs.Postgres.Dispatch
import AccessControl.Proofs.Session.Opening

/-!
# The schema before the data

An authority over a data source of tables opens its store by statements that create the tables, and
calls it only when it is open. So the log of the server shows attempts at the schema that broke off,
then one that did not, and after it data alone.
-/

namespace AccessControl

open Dialogue (Exchange Answers)
open Postgres

/-- Whether a store is open before and after some exchanges in which it is opened if it is not, and
called only if it is. -/
inductive Orderly (c : PermissionConfig) : Bool → List (Exchange Need.Answer) → Bool → Prop
  | nil (b : Bool) : Orderly c b [] b
  | groups {i : ProviderId} {user : String} {x : Except IdentityError (List Group)} {b b' : Bool}
      {t : List (Exchange Need.Answer)} (h : Orderly c b t b') :
    Orderly c b (⟨.groups i user, x⟩ :: t) b'
  | opening {x : Except StoreError Unit} {b' : Bool} {t : List (Exchange Need.Answer)}
      (h : Orderly c x.isOk t b') : Orderly c false (⟨.store c, x⟩ :: t) b'
  | call {k : StoreCall} {x : k.Result} {b' : Bool} {t : List (Exchange Need.Answer)}
      (h : Orderly c true t b') : Orderly c true (⟨.call k, x⟩ :: t) b'

section

variable {c : PermissionConfig} {t t' : List (Exchange Need.Answer)} {b b' b'' : Bool}

theorem Orderly.append (h : Orderly c b t b') (h' : Orderly c b' t' b'') :
    Orderly c b (t ++ t') b'' := by
  induction h with
  | nil b => exact h'
  | groups h ih => exact .groups (ih h')
  | opening h ih => exact .opening (ih h')
  | call h ih => exact .call (ih h')

namespace Authority

variable {a a' : Authority} {o : Operation} {r : o.Result} {roles : List Role}

theorem Needing.orderly (h : a.Needing o t roles) (b : Bool) : Orderly c b t b := by
  cases h with
  | managing ho => exact .nil b
  | checking hp hgs => exact .groups (.nil b)

theorem Readying.orderly {x : Except AuthorityError Authority} (h : a.Readying t x)
    (hc : a.config = some c) : Orderly c a.opened t (match x with
      | .ok a' => a'.opened
      | .error _ => a.opened) := by
  cases h with
  | held ho => exact .nil _
  | sourceless ho hs => exact .nil _
  | unconfigured ho hs hn => exact .nil _
  | refused ho hs hc' =>
    cases hc.symm.trans hc'
    rw [ho]
    exact .opening (.nil _)
  | opening ho hs hc' =>
    cases hc.symm.trans hc'
    rw [ho]
    exact .opening (.nil _)

theorem Readying.opened_of_ok (h : a.Readying t (.ok a')) : a'.opened = true := by
  cases h with
  | held ho => exact ho
  | opening ho hs hc => rfl

theorem Errand.orderly (h : Errand roles o t r) : Orderly c true t true := by
  cases h with
  | delete => exact .call (.call (.nil _))
  | _ => exact .call (.nil _)

theorem Course.orderly (h : a.Course o t r a') (hc : a.config = some c) :
    Orderly c a.opened t a'.opened := by
  cases h with
  | bind i => exact .nil _
  | unbind => exact .nil _
  | unbound hp => exact .nil _
  | unresolved hp => exact .groups (.nil _)
  | roleless hp => exact .groups (.nil _)
  | unready hn hr => exact (hn.orderly _).append (hr.orderly hc)
  | served hn hr he =>
    have hopened := hr.opened_of_ok
    have hready := hr.orderly hc
    dsimp only at hready
    rw [hopened] at hready ⊢
    exact ((hn.orderly _).append hready).append he.orderly

end Authority

end

namespace Postgres

/-- What has been given to a server for a store: attempts at what it demands that broke off, and, if
it is open, one that came to the end and data. -/
inductive Story (c : PermissionConfig) : Bool → List Dispatch → Prop
  | closed {dss : List (List Dispatch)} (hf : ∀ ds ∈ dss, Attempt (demanded c) ds false) :
    Story c false dss.flatten
  | opened {dss : List (List Dispatch)} {whole data : List Dispatch}
      (hf : ∀ ds ∈ dss, Attempt (demanded c) ds false) (hw : Attempt (demanded c) whole true)
      (hd : ∀ d ∈ data, IsData (.ofConfig c) d.statement) :
    Story c true (dss.flatten ++ whole ++ data)

variable {c : PermissionConfig} {ds ds' : List Dispatch}

theorem Story.attempt {ok : Bool} (h : Story c false ds) (ha : Attempt (demanded c) ds' ok) :
    Story c ok (ds ++ ds') := by
  cases h with
  | @closed dss hf =>
    cases ok with
    | false =>
      have hs : Story c false (dss ++ [ds']).flatten :=
        .closed (List.forall_mem_append.2 ⟨hf, List.forall_mem_singleton.2 ha⟩)
      rwa [List.flatten_append, List.flatten_singleton] at hs
    | true =>
      have hs : Story c true (dss.flatten ++ ds' ++ []) := .opened hf ha nofun
      rwa [List.append_nil] at hs

theorem Story.of_createTables {b : Bool} (h : Story c b ds) (hc : c.createTables = true) :
    ∃ failed : List (List Dispatch), (∀ ds ∈ failed, Attempt (schema (.ofConfig c)) ds false) ∧
      (ds = failed.flatten ∨ ∃ whole data, ds = failed.flatten ++ whole ++ data ∧
        Attempt (schema (.ofConfig c)) whole true ∧
        ∀ d ∈ data, IsData (.ofConfig c) d.statement) := by
  have hq : demanded c = schema (.ofConfig c) := if_pos hc
  cases h with
  | @closed failed hf => exact ⟨failed, hq ▸ hf, .inl rfl⟩
  | @opened failed whole data hf hw hd =>
    exact ⟨failed, hq ▸ hf, .inr ⟨whole, data, rfl, hq ▸ hw, hd⟩⟩

theorem Story.isData {b : Bool} (h : Story c b ds) (hc : c.createTables = false) :
    ∀ d ∈ ds, IsData (.ofConfig c) d.statement := by
  have hq : demanded c = [] := by simp [demanded, hc]
  have hnone {failed : List (List Dispatch)} (hf : ∀ ds ∈ failed, Attempt (demanded c) ds false) :
      failed.flatten = [] := by
    cases failed with
    | nil => rfl
    | cons ds failed => cases hq ▸ hf ds List.mem_cons_self
  cases h with
  | closed hf =>
    rw [hnone hf]
    exact fun d hd => absurd hd List.not_mem_nil
  | opened hf hw hd =>
    rw [hq] at hw
    cases hw
    rwa [hnone hf]

theorem Story.data (h : Story c true ds) (hd : ∀ d ∈ ds', IsData (.ofConfig c) d.statement) :
    Story c true (ds ++ ds') := by
  cases h with
  | opened hf hw hd' =>
    rw [List.append_assoc]
    exact .opened hf hw (List.forall_mem_append.2 ⟨hd', hd⟩)

end Postgres

namespace Surroundings

def dispatches (own : PermissionConfig) (q : Need) (s : Surroundings) : List Dispatch :=
  match s.source with
  | .memory _ => []
  | .tables r v =>
    match q with
    | .store c =>
      match s.openFaults.head?.getD none with
      | some _ => []
      | none => Deed.opening.dispatches c (r, v)
    | .call k =>
      match s.fault? k with
      | some _ => []
      | none => (Deed.call k).dispatches own (r, v)
    | .groups _ _ => []

def dispatchesIn (own : PermissionConfig) :
    List (Exchange Need.Answer) → Surroundings → List Dispatch
  | [], _ => []
  | x :: t, s => s.dispatches own x.1 ++ dispatchesIn own t (s.answer own x.1).2

/-- How surroundings stand that have given some statements to a server, for a store that is open or
not, where the data source of its configuration is registered or is not. -/
structure Standing (c : PermissionConfig) (registered : Bool) (log : List Sql.Statement)
    (ds : List Dispatch) (b : Bool) (s : Surroundings) : Prop where
  source : ∃ r v, s.source = .tables r v ∧ (r.pool? c.datasource).isSome = registered ∧
    v.log = log ++ sentOf ds
  story : Story c b ds
  unregistered : registered = false → ds = [] ∧ b = false

variable {c : PermissionConfig} {registered b b' : Bool} {log : List Sql.Statement}
  {ds : List Dispatch} {s u : Surroundings} {t : List (Exchange Need.Answer)}

theorem Standing.withProviders (h : Standing c registered log ds b s) (ps : List Provider) :
    Standing c registered log ds b { s with providers := ps } :=
  ⟨h.source, h.story, h.unregistered⟩

theorem Standing.answerGroups (h : Standing c registered log ds b s) (i : ProviderId)
    (user : String) : Standing c registered log (ds ++ s.dispatches c (.groups i user)) b
      (s.answerGroups i user).2 := by
  obtain ⟨ps, hs⟩ := answerGroups_snd i user s
  have hd : s.dispatches c (.groups i user) = [] := by
    simp only [dispatches]
    cases s.source <;> rfl
  rw [hs, hd, List.append_nil]
  exact h.withProviders ps

theorem answerOpen_of_fault {e : StoreError} (hf : s.openFaults.head?.getD none = some e) :
    s.answerOpen c =
      (.error e, { s with openFaults := s.openFaults.tail, opens := s.opens + 1 }) := by
  simp only [answerOpen, hf]

theorem answerOpen_tables {r : Registry} {v : Sql.Server} (hs : s.source = .tables r v)
    (hf : s.openFaults.head?.getD none = none) :
    let y := (Deed.opening.spoken c (r, v)).run (Registry.execute c.datasource) (r, v)
    s.answerOpen c = (y.1, { s with
      source := .tables y.2.1 y.2.2, openFaults := s.openFaults.tail, opens := s.opens + 1 }) := by
  simp only [answerOpen, hf, hs]
  rfl

theorem answerCall_of_fault {k : StoreCall} {e : StoreError} (hf : s.fault? k = some e) :
    s.answerCall c k = (.error e, { s with calls := s.calls ++ [k] }) := by
  simp only [answerCall, hf]

theorem answerCall_tables {k : StoreCall} {r : Registry} {v : Sql.Server}
    (hs : s.source = .tables r v) (hf : s.fault? k = none) :
    let y := ((Deed.call k).spoken c (r, v)).run (Registry.execute c.datasource) (r, v)
    s.answerCall c k =
      (y.1, { s with source := .tables y.2.1 y.2.2, calls := s.calls ++ [k] }) := by
  simp only [answerCall, hf, hs]
  rfl

theorem Standing.answerOpen (h : Standing c registered log ds false s) :
    Standing c registered log (ds ++ s.dispatches c (.store c)) (s.answerOpen c).1.isOk
      (s.answerOpen c).2 := by
  obtain ⟨r, v, hsrc, hreg, hlog⟩ := h.source
  cases hf : s.openFaults.head?.getD none with
  | some e =>
    have hd : s.dispatches c (.store c) = [] := by simp only [dispatches, hsrc, hf]
    rw [answerOpen_of_fault hf, hd, List.append_nil]
    exact ⟨h.source, h.story, h.unregistered⟩
  | none =>
    have hd : s.dispatches c (.store c) = Deed.opening.dispatches c (r, v) := by
      simp only [dispatches, hsrc, hf]
    have hlog' := log_run_eq (n := c.datasource) (Deed.opening.spoken c (r, v)) (r, v)
    have hreg' := isSome_pool?_run (n := c.datasource) (m := c.datasource)
      (Deed.opening.spoken c (r, v)) (r, v)
    rw [answerOpen_tables hsrc hf, hd]
    cases registered with
    | false =>
      obtain ⟨hnone, hrun⟩ := Deed.dispatches_opening_of_unregistered (w := (r, v)) hreg
      rw [hnone, hrun, List.append_nil]
      exact ⟨⟨r, v, rfl, hreg, hlog⟩, h.story, h.unregistered⟩
    | true =>
      refine ⟨⟨_, _, rfl, hreg'.trans hreg, ?_⟩,
        h.story.attempt (Deed.attempt_opening hreg), nofun⟩
      rw [hlog', hlog, sentOf_append, List.append_assoc]
      rfl

theorem Standing.answerCall (h : Standing c registered log ds true s) (k : StoreCall) :
    Standing c registered log (ds ++ s.dispatches c (.call k)) true (s.answerCall c k).2 := by
  obtain ⟨r, v, hsrc, hreg, hlog⟩ := h.source
  cases hf : s.fault? k with
  | some e =>
    have hd : s.dispatches c (.call k) = [] := by simp only [dispatches, hsrc, hf]
    rw [answerCall_of_fault hf, hd, List.append_nil]
    exact ⟨h.source, h.story, h.unregistered⟩
  | none =>
    have hd : s.dispatches c (.call k) = (Deed.call k).dispatches c (r, v) := by
      simp only [dispatches, hsrc, hf]
    have hlog' := log_run_eq (n := c.datasource) ((Deed.call k).spoken c (r, v)) (r, v)
    have hreg' := isSome_pool?_run (n := c.datasource) (m := c.datasource)
      ((Deed.call k).spoken c (r, v)) (r, v)
    rw [answerCall_tables hsrc hf, hd]
    refine ⟨⟨_, _, rfl, hreg'.trans hreg, ?_⟩,
      h.story.data fun d => Deed.isData_dispatches, fun hr => nomatch (h.unregistered hr).2⟩
    rw [hlog', hlog, sentOf_append, List.append_assoc]
    rfl

theorem Standing.along (ht : Orderly c b t b') (ha : Answers (answer c) t s u)
    (h : Standing c registered log ds b s) :
    Standing c registered log (ds ++ dispatchesIn c t s) b' u := by
  -- whether the store is open tells which of the two lemmas is for the next exchange
  induction ht generalizing ds s with
  | nil b =>
    cases ha
    rwa [dispatchesIn, List.append_nil]
  | groups ht ih =>
    rw [dispatchesIn, ← List.append_assoc]
    exact ih ha.2 (h.answerGroups _ _)
  | @opening x b' t ht ih =>
    have hx : (s.answerOpen c).1 = x := ha.1
    have hopen := h.answerOpen
    rw [hx] at hopen
    rw [dispatchesIn, ← List.append_assoc]
    exact ih ha.2 hopen
  | call ht ih =>
    rw [dispatchesIn, ← List.append_assoc]
    exact ih ha.2 (h.answerCall _)

theorem openFaults_answer (own : PermissionConfig) (q : Need) (s : Surroundings)
    (h : ∀ f ∈ s.openFaults, f = none) :
    ∀ f ∈ (s.answer own q).2.openFaults, f = none := by
  cases q with
  | store c =>
    obtain ⟨source, hs⟩ := answerOpen_snd c s
    rw [answer, hs]
    exact fun f hf => h f (List.mem_of_mem_tail hf)
  | call k =>
    obtain ⟨source, hs⟩ := answerCall_snd own k s
    rwa [answer, hs]
  | groups i user =>
    obtain ⟨providers, hs⟩ := answerGroups_snd i user s
    rwa [answer, hs]

def notFound (c : PermissionConfig) : StoreError :=
  .storage ("Data source not found: " ++ c.datasource)

theorem Standing.answerOpen_notFound (h : Standing c false log ds b s)
    (hf : ∀ f ∈ s.openFaults, f = none) : (s.answerOpen c).1 = .error (notFound c) := by
  obtain ⟨r, v, hsrc, hreg, -⟩ := h.source
  have hnone : s.openFaults.head?.getD none = none := by
    cases he : s.openFaults with
    | nil => rfl
    | cons f fs => exact hf f (he ▸ List.mem_cons_self)
  obtain ⟨-, hrun⟩ := Deed.dispatches_opening_of_unregistered (w := (r, v)) hreg
  rw [answerOpen_tables hsrc hnone, hrun]
  rfl

theorem Standing.openings_notFound (ht : Orderly c b t b') (ha : Answers (answer c) t s u)
    (h : Standing c false log ds b s) (hf : ∀ f ∈ s.openFaults, f = none) :
    ∀ y ∈ openings t, y = .error (notFound c) := by
  induction ht generalizing ds s with
  | nil b => nofun
  | groups ht ih => exact ih ha.2 (h.answerGroups _ _) (openFaults_answer _ _ s hf)
  | @opening x b' t ht ih =>
    have hx : (s.answerOpen c).1 = x := ha.1
    have hopen := h.answerOpen
    rw [hx] at hopen
    exact List.forall_mem_cons.2 ⟨hx.symm.trans (h.answerOpen_notFound hf),
      ih ha.2 hopen (openFaults_answer _ _ s hf)⟩
  | call ht ih => cases (h.unregistered rfl).2

end Surroundings

namespace Session

def own (x : Step) (s : Session) : PermissionConfig :=
  match x with
  | .perform n _ => (s.authorities[n]?.map (·.own)).getD .standard
  | _ => .standard

def dispatched (x : Step) (s : Session) : Option (List Dispatch × Session) :=
  (s.step x).map fun y => (Surroundings.dispatchesIn (s.own x) (asked x s) s.surroundings, y.2)

def dispatches (xs : List Step) (s : Session) : Option (List (List Dispatch) × Session) :=
  runSteps dispatched xs s

structure Lone (c : PermissionConfig) (registered : Bool) (log : List Sql.Statement)
    (ds : List Dispatch) (a : Authority) (s : Session) : Prop where
  authorities : s.authorities = [a]
  hasSource : a.hasSource = true
  config : a.config = some c
  standing : s.surroundings.Standing c registered log ds a.opened

variable {c : PermissionConfig} {registered : Bool} {log : List Sql.Statement}
  {ds ds' : List Dispatch} {a : Authority} {s s' : Session} {x : Step} {n : Nat} {o : Operation}
  {r : o.Result}

theorem Lone.own_eq (h : s.Lone c registered log ds a) : a.own = c := by
  rw [Authority.own, h.config, Option.getD_some]

theorem Lone.course (h : s.Lone c registered log ds a) (hp : s.perform n o = some (r, s')) :
    ∃ a', a.Course o (s.askedFor n o) r a' ∧
      Answers (Surroundings.answer c) (s.askedFor n o) s.surroundings s'.surroundings ∧
      s'.Lone c registered log (ds ++ Surroundings.dispatchesIn (s.own (.perform n o))
        (s.askedFor n o) s.surroundings) a' := by
  obtain ⟨b, a', hb, hc, ha, hset⟩ := perform_course hp
  rw [h.authorities] at hb hset
  obtain ⟨hlt, hget⟩ := List.getElem?_eq_some_iff.1 hb
  obtain rfl : n = 0 := Nat.lt_one_iff.1 hlt
  obtain rfl : a = b := hget
  have hadv := hc.advances
  have hown : s.own (.perform 0 o) = c := by
    simp only [Session.own, h.authorities, hb, Option.map_some, Option.getD_some, h.own_eq]
  rw [h.own_eq] at ha
  rw [hown]
  exact ⟨a', hc, ha, hset, hadv.hasSource.trans h.hasSource, hadv.config.trans h.config,
    h.standing.along (hc.orderly h.config) ha⟩

theorem Lone.dispatched (h : s.Lone c registered log ds a) (hx : s.dispatched x = some (ds', s')) :
    ∃ a', s'.Lone c registered log (ds ++ ds') a' := by
  obtain ⟨⟨ev, s₁⟩, hstep, heq⟩ := Option.map_eq_some_iff.1 hx
  cases heq
  cases x with
  | perform n o =>
    obtain ⟨-, r, hp, -⟩ := step_perform_eq_some hstep
    obtain ⟨a', -, -, h'⟩ := h.course hp
    exact ⟨a', h'⟩
  | _ =>
    obtain ⟨-, ps, rfl⟩ := step_outside hstep nofun
    refine ⟨a, ?_⟩
    show Lone c registered log (ds ++ []) a (s.withProviders ps)
    rw [List.append_nil]
    exact ⟨h.authorities, h.hasSource, h.config, h.standing.withProviders ps⟩

variable {s₀ : Session} {xs : List Step} {dss : List (List Dispatch)} {bound : Option ProviderId}
  {reg : Registry} {server : Sql.Server}

theorem lone_of_run (hrun : s₀.dispatches xs = some (dss, s))
    (hone : s₀.authorities = [.new true (some c) bound])
    (hsrc : s₀.surroundings.source = .tables reg server) :
    ∃ a, s.Lone c (reg.pool? c.datasource).isSome server.log dss.flatten a := by
  refine runSteps_keeps
    (P := fun dss s => ∃ a, Lone c (reg.pool? c.datasource).isSome server.log dss.flatten a s)
    (fun x _ dss s ds s' ⟨a, hs⟩ hx => ?_) (h := []) ?_ hrun
  · rw [List.flatten_append, List.flatten_singleton]
    exact hs.dispatched hx
  · have hstory : Story c false (List.flatten []) := .closed nofun
    exact ⟨_, hone, rfl, rfl, ⟨reg, server, hsrc, rfl, (List.append_nil _).symm⟩, hstory,
      fun _ => ⟨rfl, rfl⟩⟩

theorem openFaults_of_run (hrun : s₀.dispatches xs = some (dss, s))
    (hf : ∀ f ∈ s₀.surroundings.openFaults, f = none) :
    ∀ f ∈ s.surroundings.openFaults, f = none := by
  refine runSteps_keeps (P := fun _ s => ∀ f ∈ s.surroundings.openFaults, f = none)
    (fun x _ dss s ds s' hs hx => ?_) (h := []) hf hrun
  obtain ⟨⟨ev, s₁⟩, hstep, heq⟩ := Option.map_eq_some_iff.1 hx
  cases heq
  cases x with
  | perform n o =>
    obtain ⟨-, r, hp, -⟩ := step_perform_eq_some hstep
    obtain ⟨a, a', -, -, ha, -⟩ := perform_eq_some hp
    exact Dialogue.answers_keeps (Surroundings.openFaults_answer _) ha hs
  | _ =>
    obtain ⟨-, ps, rfl⟩ := step_outside hstep nofun
    exact hs

theorem Lone.notFound (h : s.Lone c false log ds a) (hf : ∀ f ∈ s.surroundings.openFaults, f = none)
    (hp : s.perform n o = some (r, s')) (hn : s.NeedsStore a o) :
    r = .error (.store (Surroundings.notFound c)) := by
  obtain ⟨a', hc, ha, -⟩ := h.course hp
  have hopened : a.opened = false := (h.standing.unregistered rfl).2
  have hneeds : s.OpensAsNeeded a o r (s.askedFor n o) [] :=
    opensAsNeeded_of_course hc (h.own_eq ▸ ha) (by simp [Authority.Sound, hopened])
      (by simp [hopened])
  have hne : openings (s.askedFor n o) ≠ [] :=
    hneeds.attempted.2 ⟨hn, h.hasSource, by simp [h.config], List.not_mem_nil⟩
  obtain ⟨y, hy⟩ := List.exists_mem_of_ne_nil _ hne
  obtain rfl := h.standing.openings_notFound (hc.orderly h.config) ha hf y hy
  exact (hneeds.refused _ hy).1

/-- In every run of one authority, whatever its server answers and refuses. If the data source is
registered and the tables are to be created, the log shows attempts at the schema that broke off,
and no data until one came to the end, and no schema after it. If the tables are not to be created,
no statement of the schema is ever given; if the data source is not registered, none at all, and
what needs the store fails. -/
theorem schema_precedes_data (hrun : s₀.dispatches xs = some (dss, s))
    (hone : s₀.authorities = [.new true (some c) bound])
    (hsrc : s₀.surroundings.source = .tables reg server) :
    let t := Tables.ofConfig c
    ∃ a reg' server', s.authorities = [a] ∧ s.surroundings.source = .tables reg' server' ∧
      server'.log = server.log ++ sentOf dss.flatten ∧
      ((reg.pool? c.datasource).isSome = true → c.createTables = true →
        ∃ failed : List (List Dispatch),
          (∀ ds ∈ failed, Attempt (schema t) ds false ∧ sentOf ds <+: schema t) ∧
          (dss.flatten = failed.flatten ∧
              server'.log = server.log ++ failed.flatMap sentOf ∨
            ∃ whole data, dss.flatten = failed.flatten ++ whole ++ data ∧
              Attempt (schema t) whole true ∧
              (∀ d ∈ data, IsData t d.statement ∧ d.statement ∉ schema t) ∧
              server'.log = server.log ++ failed.flatMap sentOf ++ schema t ++ sentOf data)) ∧
      (c.createTables = false → ∀ d ∈ dss.flatten, IsData t d.statement ∧ d.statement ∉ schema t) ∧
      (reg.pool? c.datasource = none → dss.flatten = [] ∧ server'.log = server.log ∧
        ((∀ f ∈ s₀.surroundings.openFaults, f = none) → ∀ o, s.NeedsStore a o →
          ∃ e s', s.perform 0 o = some (.error (.store (.storage e)), s') ∧
            e = "Data source not found: " ++ c.datasource)) := by
  intro t
  obtain ⟨a, h⟩ := lone_of_run hrun hone hsrc
  obtain ⟨reg', server', hsrc', -, hlog⟩ := h.standing.source
  refine ⟨a, reg', server', h.authorities, hsrc', hlog, ?_, ?_, ?_⟩
  · intro _ hc
    obtain ⟨failed, hf, hds⟩ := h.standing.story.of_createTables hc
    refine ⟨failed, fun ds hd => ⟨hf ds hd, (hf ds hd).prefix_sentOf⟩, ?_⟩
    rcases hds with hds | ⟨whole, data, hds, hw, hd⟩
    · exact .inl ⟨hds, by rw [hlog, hds, sentOf_flatten]⟩
    · refine .inr ⟨whole, data, hds, hw, fun d hm => ⟨hd d hm, (hd d hm).not_mem_schema⟩, ?_⟩
      simp only [hlog, hds, sentOf_append, sentOf_flatten, hw.sentOf_eq, List.append_assoc, t]
  · intro hc d hd
    have hdata := h.standing.story.isData hc d hd
    exact ⟨hdata, hdata.not_mem_schema⟩
  · intro hnone
    have hds : dss.flatten = [] ∧ a.opened = false := h.standing.unregistered (by rw [hnone]; rfl)
    refine ⟨hds.1, by rw [hlog, hds.1]; exact List.append_nil _, fun hf o hn => ?_⟩
    obtain ⟨r, s', hp⟩ := exists_perform (n := 0) (by rw [h.authorities]; rfl) o
    rw [hnone] at h
    obtain rfl := h.notFound (openFaults_of_run hrun hf) hp hn
    exact ⟨_, s', hp, rfl⟩

theorem schema_precedes_data_retried :
    let c := PermissionConfig.standard
    let t := Tables.ofConfig c
    let p : Permission := ⟨"dashboard-1", "view"⟩
    let server : Sql.Server := ⟨true, [.refuses "28P01" "password authentication failed"],
      [.table ⟨[], 0⟩, .fails "42501" "permission denied"], []⟩
    let d : DataSourceConfig := .new c.datasource "postgres://db.local/app" true
    let s₀ : Session := ⟨[.new true (some c) none],
      ⟨.tables ⟨[(d.name, .idle d)]⟩ server, [], [], [], 0, []⟩⟩
    let xs : List Step := [.perform 0 (.add p), .perform 0 (.add p), .perform 0 (.add p),
      .perform 0 (.delete p)]
    ∃ dss s reg' server', s₀.dispatches xs = some (dss, s) ∧ dss.map (·.length) = [1, 2, 4, 2] ∧
      s.surroundings.source = .tables reg' server' ∧
      server'.log = (schema t).take 2 ++ schema t ++
        [(Command.insertPermission p).statement t, (Command.deleteGrants p).statement t,
          (Command.deletePermission p).statement t] := by
  intro c t p server d s₀ xs
  have hgiven : (s₀.dispatches xs).map (fun y => (y.1.map (·.length), sentOf y.1.flatten)) =
      some ([1, 2, 4, 2], (schema t).take 2 ++ schema t ++
        [(Command.insertPermission p).statement t, (Command.deleteGrants p).statement t,
          (Command.deletePermission p).statement t]) := by
    decide +kernel
  obtain ⟨⟨dss, s⟩, hrun, heq⟩ := Option.map_eq_some_iff.1 hgiven
  obtain ⟨hlen, hsent⟩ := Prod.mk.inj heq
  obtain ⟨a, reg', server', -, hsrc, hlog, -⟩ := schema_precedes_data hrun rfl rfl
  exact ⟨dss, s, reg', server', hrun, hlen, hsrc, hlog.trans hsent⟩

end Session

end AccessControl
