import AccessControl.DataSource.Registry
import AccessControl.Proofs.Transcript
import Mathlib.Data.List.Induction

/-!
# How a registry is assembled

Data sources are connected and registered in order, up to the first that cannot be connected or has
the name of an earlier one. What comes of each is told by its address, by whether it is lazy, and by
what its server answers.
-/

namespace AccessControl

open Sql

/-- A data source, and why it cannot be connected if it cannot. -/
structure Trial where
  config : DataSourceConfig
  failure? : Option Failure

variable {σ : Type} (names : Web.Idna) (peer : DataSourceConfig → σ → Option Failure × σ)

def asked (cs : List DataSourceConfig) : List DataSourceConfig :=
  cs.filter fun c => (ConnectString.fault? names c.url).isNone && !c.isLazy

/-- What comes of a data source, and of its server. One with a faulty address is given up, and one
that is lazy is left for later. -/
def Trial.of (c : DataSourceConfig) (s : σ) : Trial × σ :=
  match ConnectString.fault? names c.url with
  | some text => (⟨c, some (.configuration text)⟩, s)
  | none =>
    if c.isLazy then (⟨c, none⟩, s)
    else
      let x := peer c s
      (⟨c, x.1⟩, x.2)

def trials : List DataSourceConfig → σ → List Trial × σ
  | [], s => ([], s)
  | c :: cs, s =>
    let x := Trial.of names peer c s
    let y := trials cs x.2
    (x.1 :: y.1, y.2)

namespace Trial

def name (a : Trial) : String := a.config.name

def pool (a : Trial) : Pool := if a.config.isLazy then .idle a.config else .started a.config

theorem name_pool (a : Trial) : a.pool.name = a.name := by
  unfold pool
  split <;> rfl

def outcome (a : Trial) : Except DatabaseError Pool :=
  match a.failure? with
  | some f => .error (.connectionFailed a.name f.message)
  | none => .ok a.pool

/-- A trial that failed, or whose name is taken, ends an assembly with an error. -/
inductive Ends (taken : List String) (a : Trial) : DatabaseError → Prop
  | unconnected {f : Failure} (h : a.failure? = some f) :
    Ends taken a (.connectionFailed a.name f.message)
  | duplicate (h : a.failure? = none) (hname : a.name ∈ taken) : Ends taken a (.duplicate a.name)

end Trial

/-- Trials that all succeeded, no two under one name. -/
structure Acceptable (as : List Trial) : Prop where
  connected : ∀ a ∈ as, a.failure? = none
  distinct : (as.map Trial.name).Nodup

/-- What comes of a list of data sources: a registry exactly if all trials are acceptable, else the
error of the first one that is not, behind which no server is asked. -/
structure Assembled (cs : List DataSourceConfig) (s : σ) : Prop where
  ok_iff : (∃ r, ((Registry.ofConfigs names cs).run peer s).1 = .ok r) ↔
    Acceptable (trials names peer cs s).1
  error_iff (e : DatabaseError) : ((Registry.ofConfigs names cs).run peer s).1 = .error e ↔
    ∃ before a after, (trials names peer cs s).1 = before ++ a :: after ∧ Acceptable before ∧
      a.Ends (before.map Trial.name) e
  completes (h : Acceptable (trials names peer cs s).1) :
    ((Registry.ofConfigs names cs).exchanges peer s).map (·.1) = asked names cs ∧
      ((Registry.ofConfigs names cs).run peer s).2 = (trials names peer cs s).2
  stops {before after : List Trial} {a : Trial} {e : DatabaseError}
      (hsplit : (trials names peer cs s).1 = before ++ a :: after) (hbefore : Acceptable before)
      (ha : a.Ends (before.map Trial.name) e) :
    let attempted := (before ++ [a]).map Trial.config
    ((Registry.ofConfigs names cs).exchanges peer s).map (·.1) = asked names attempted ∧
      ((Registry.ofConfigs names cs).run peer s).2 = (trials names peer attempted s).2

variable {names} {peer} {cs : List DataSourceConfig} {c : DataSourceConfig} {s : σ} {r : Registry}

variable (names peer) in
theorem run_connect (c : DataSourceConfig) (s : σ) :
    (c.connect names).run peer s =
      ((Trial.of names peer c s).1.outcome, (Trial.of names peer c s).2) := by
  unfold DataSourceConfig.connect ConnectString.check Trial.of
  cases ConnectString.fault? names c.url with
  | some text => rfl
  | none =>
    cases hl : c.isLazy with
    | true => simp [Dialogue.run, Trial.outcome, Trial.pool, hl]
    | false =>
      cases hp : (peer c s).1 <;>
        simp [Dialogue.run, Trial.outcome, Trial.pool, Trial.name, hl, hp]

variable (names peer) in
theorem exchanges_connect (c : DataSourceConfig) (s : σ) :
    ((c.connect names).exchanges peer s).map (·.1) = asked names [c] := by
  unfold DataSourceConfig.connect ConnectString.check
  cases hf : ConnectString.fault? names c.url with
  | some text => simp [Dialogue.exchanges, asked, hf]
  | none =>
    cases hl : c.isLazy with
    | true => simp [Dialogue.exchanges, asked, hl]
    | false =>
      cases hp : (peer c s).1 <;> simp [Dialogue.exchanges, asked, hf, hl, hp]

theorem asked_append (cs ds : List DataSourceConfig) :
    asked names (cs ++ ds) = asked names cs ++ asked names ds :=
  List.filter_append ..

theorem config_of (c : DataSourceConfig) (s : σ) : (Trial.of names peer c s).1.config = c := by
  unfold Trial.of
  split
  · rfl
  · split <;> rfl

variable (names peer) in
theorem map_config_trials (cs : List DataSourceConfig) (s : σ) :
    (trials names peer cs s).1.map Trial.config = cs := by
  induction cs generalizing s with
  | nil => rfl
  | cons c cs ih => rw [trials, List.map_cons, config_of, ih]

theorem trials_append (cs ds : List DataSourceConfig) (s : σ) :
    trials names peer (cs ++ ds) s =
      ((trials names peer cs s).1 ++ (trials names peer ds (trials names peer cs s).2).1,
        (trials names peer ds (trials names peer cs s).2).2) := by
  induction cs generalizing s with
  | nil => rfl
  | cons c cs ih => simp only [List.cons_append, trials, ih]

theorem outcome_of_connected {a : Trial} (h : a.failure? = none) : a.outcome = .ok a.pool := by
  rw [Trial.outcome, h]

theorem acceptable_or_ends (as : List Trial) :
    Acceptable as ∨ ∃ before a after e, as = before ++ a :: after ∧ Acceptable before ∧
      a.Ends (before.map Trial.name) e := by
  induction as using List.reverseRecOn with
  | nil => exact .inl ⟨nofun, .nil⟩
  | append_singleton as a ih =>
    rcases ih with has | ⟨before, b, after, e, rfl, hbefore, hb⟩
    · cases ha : a.failure? with
      | some f => exact .inr ⟨as, a, [], _, rfl, has, .unconnected ha⟩
      | none =>
        by_cases hname : a.name ∈ as.map Trial.name
        · exact .inr ⟨as, a, [], _, rfl, has, .duplicate ha hname⟩
        · refine .inl ⟨fun b hb => ?_, ?_⟩
          · rcases List.mem_append.1 hb with hb | hb
            · exact has.connected b hb
            · exact List.mem_singleton.1 hb ▸ ha
          · rw [List.map_append, List.map_singleton, List.nodup_append]
            refine ⟨has.distinct, List.pairwise_singleton _ _, fun x hx y hy heq => hname ?_⟩
            rwa [← List.mem_singleton.1 hy, ← heq]
    · exact .inr ⟨before, b, after ++ [a], e, by simp, hbefore, hb⟩

namespace Registry

def withTrials (r : Registry) (as : List Trial) : Registry :=
  ⟨(as.map fun a => (a.name, a.pool)).reverse ++ r.pools⟩

theorem register_of_free {p : Pool} (h : r.pool? p.name = none) :
    r.register p = .ok ⟨(p.name, p) :: r.pools⟩ := by
  rw [register, h]

theorem register_of_taken {p q : Pool} (h : r.pool? p.name = some q) :
    r.register p = .error (.duplicate p.name) := by
  rw [register, h]

theorem withTrials_cons (a : Trial) (as : List Trial) :
    r.withTrials (a :: as) = (⟨(a.name, a.pool) :: r.pools⟩ : Registry).withTrials as := by
  simp [withTrials]

theorem register_first {a : Trial} {as : List Trial} (h : Acceptable (a :: as))
    (hfree : ∀ b ∈ a :: as, r.pool? b.name = none) :
    let r' : Registry := ⟨(a.name, a.pool) :: r.pools⟩
    r.register a.pool = .ok r' ∧ Acceptable as ∧ ∀ b ∈ as, r'.pool? b.name = none := by
  obtain ⟨ha, has⟩ := List.nodup_cons.1 h.distinct
  have hregister : r.register a.pool = .ok ⟨(a.name, a.pool) :: r.pools⟩ := by
    rw [register_of_free (a.name_pool ▸ hfree a List.mem_cons_self), a.name_pool]
  refine ⟨hregister, ⟨fun b hb => h.connected b (List.mem_cons_of_mem a hb), has⟩, fun b hb => ?_⟩
  have hne : a.name ≠ b.name := fun heq => ha (List.mem_map.2 ⟨b, hb, heq.symm⟩)
  rw [pool?_register hregister, a.name_pool, if_neg hne]
  exact hfree b (List.mem_cons_of_mem a hb)

theorem addAll_append {before : List DataSourceConfig}
    (h : Acceptable (trials names peer before s).1)
    (hfree : ∀ a ∈ (trials names peer before s).1, r.pool? a.name = none)
    (rest : List DataSourceConfig) :
    let r' := r.withTrials (trials names peer before s).1
    let s' := (trials names peer before s).2
    (r.addAll names (before ++ rest)).run peer s = (r'.addAll names rest).run peer s' ∧
      ((r.addAll names (before ++ rest)).exchanges peer s).map (·.1) =
        asked names before ++ ((r'.addAll names rest).exchanges peer s').map (·.1) := by
  induction before generalizing r s with
  | nil => exact ⟨rfl, rfl⟩
  | cons c cs ih =>
    rw [trials] at h hfree ⊢
    have hconnect : (c.connect names).run peer s =
        (.ok (Trial.of names peer c s).1.pool, (Trial.of names peer c s).2) := by
      rw [run_connect, outcome_of_connected (h.connected _ List.mem_cons_self)]
    obtain ⟨hregister, hcs, hcsfree⟩ := register_first h hfree
    obtain ⟨hrun, hexchanges⟩ := ih hcs hcsfree
    have hasked : asked names (c :: cs) = asked names [c] ++ asked names cs := asked_append [c] cs
    rw [withTrials_cons, hasked, ← exchanges_connect names peer c s]
    simp only [List.cons_append, addAll, Dialogue.run_bind, Dialogue.exchanges_bind, hconnect,
      hregister, List.map_append, List.append_assoc, hrun, hexchanges, and_self]

theorem pool?_eq_none_iff {name : String} :
    r.pool? name = none ↔ name ∉ r.pools.map (·.1) := by
  obtain ⟨pools⟩ := r
  simp only [pool?]
  induction pools with
  | nil => simp [lookup]
  | cons entry pools ih =>
    obtain ⟨n, p⟩ := entry
    simp only [lookup, List.map_cons, List.mem_cons, not_or]
    split
    · rename_i h
      simp [h]
    · rename_i h
      rw [ih, and_iff_right (Ne.symm h)]

theorem addAll_cons_of_ends {taken : List String} {e : DatabaseError}
    (h : (Trial.of names peer c s).1.Ends taken e) (htaken : ∀ name ∈ taken, r.pool? name ≠ none)
    (cs : List DataSourceConfig) :
    (r.addAll names (c :: cs)).run peer s = (.error e, (Trial.of names peer c s).2) ∧
      ((r.addAll names (c :: cs)).exchanges peer s).map (·.1) = asked names [c] := by
  rw [← exchanges_connect names peer c s]
  simp only [addAll, Dialogue.run_bind, Dialogue.exchanges_bind, run_connect]
  cases h with
  | unconnected h =>
    simp only [Trial.outcome, h, Trial.name, config_of, Dialogue.run, Dialogue.exchanges,
      List.append_nil, and_self]
  | duplicate h hname =>
    obtain ⟨q, hq⟩ := Option.ne_none_iff_exists'.1 (htaken _ hname)
    have hregister := register_of_taken ((Trial.of names peer c s).1.name_pool.symm ▸ hq)
    simp only [outcome_of_connected h, hregister, Trial.name_pool, Dialogue.run,
      Dialogue.exchanges, List.append_nil, and_self]

theorem ofConfigs_of_acceptable (h : Acceptable (trials names peer cs s).1) :
    (ofConfigs names cs).run peer s =
        (.ok (empty.withTrials (trials names peer cs s).1), (trials names peer cs s).2) ∧
      ((ofConfigs names cs).exchanges peer s).map (·.1) = asked names cs := by
  obtain ⟨hrun, hexchanges⟩ := addAll_append (r := empty) h (fun _ _ => rfl) []
  rw [List.append_nil] at hrun hexchanges
  exact ⟨hrun, hexchanges.trans (List.append_nil _)⟩

theorem exists_of_trials_eq {before after : List Trial} {a : Trial}
    (h : (trials names peer cs s).1 = before ++ a :: after) :
    let front := trials names peer (before.map Trial.config) s
    cs = before.map Trial.config ++ a.config :: after.map Trial.config ∧ front.1 = before ∧
      (Trial.of names peer a.config front.2).1 = a := by
  have hcs : cs = before.map Trial.config ++ a.config :: after.map Trial.config := by
    rw [← map_config_trials names peer cs s, h, List.map_append, List.map_cons]
  have hlen : (trials names peer (before.map Trial.config) s).1.length = before.length := by
    rw [← List.length_map Trial.config, map_config_trials, List.length_map]
  rw [hcs, trials_append, trials] at h
  obtain ⟨hfront, hrest⟩ := List.append_inj h hlen
  exact ⟨hcs, hfront, (List.cons.inj hrest).1⟩

theorem ofConfigs_of_ends {before after : List Trial} {a : Trial} {e : DatabaseError}
    (hsplit : (trials names peer cs s).1 = before ++ a :: after) (hbefore : Acceptable before)
    (ha : a.Ends (before.map Trial.name) e) :
    let attempted := (before ++ [a]).map Trial.config
    (ofConfigs names cs).run peer s = (.error e, (trials names peer attempted s).2) ∧
      ((ofConfigs names cs).exchanges peer s).map (·.1) = asked names attempted := by
  obtain ⟨rfl, hfront, heq⟩ := exists_of_trials_eq hsplit
  have hfree : ∀ name ∈ before.map Trial.name, (empty.withTrials before).pool? name ≠ none := by
    intro name hname
    rw [Ne, pool?_eq_none_iff, not_not]
    simpa [withTrials, empty] using hname
  obtain ⟨hrun, hexchanges⟩ := addAll_append (r := empty) (hfront.symm ▸ hbefore)
    (fun _ _ => rfl) (a.config :: after.map Trial.config)
  obtain ⟨hrun', hexchanges'⟩ :=
    addAll_cons_of_ends (heq.symm ▸ ha) hfree (after.map Trial.config)
  rw [hfront] at hrun hexchanges
  simp only [List.map_append, List.map_singleton, trials_append, asked_append]
  exact ⟨hrun.trans hrun', hexchanges.trans (congrArg _ hexchanges')⟩

end Registry

theorem assembled (names : Web.Idna) (peer : DataSourceConfig → σ → Option Failure × σ)
    (cs : List DataSourceConfig) (s : σ) : Assembled names peer cs s := by
  have hends := acceptable_or_ends (trials names peer cs s).1
  refine ⟨⟨?_, fun h => ⟨_, congrArg Prod.fst (Registry.ofConfigs_of_acceptable h).1⟩⟩,
    fun e => ⟨fun h => ?_, ?_⟩, fun h => ?_, ?_⟩
  · rintro ⟨r, h⟩
    refine hends.resolve_right fun ⟨before, a, after, e, hsplit, hbefore, ha⟩ => ?_
    rw [(Registry.ofConfigs_of_ends hsplit hbefore ha).1] at h
    cases h
  · rcases hends with hok | ⟨before, a, after, e', hsplit, hbefore, ha⟩
    · rw [(Registry.ofConfigs_of_acceptable hok).1] at h
      cases h
    · rw [(Registry.ofConfigs_of_ends hsplit hbefore ha).1] at h
      cases h
      exact ⟨before, a, after, hsplit, hbefore, ha⟩
  · rintro ⟨before, a, after, hsplit, hbefore, ha⟩
    rw [(Registry.ofConfigs_of_ends hsplit hbefore ha).1]
  · obtain ⟨hrun, hexchanges⟩ := Registry.ofConfigs_of_acceptable h
    exact ⟨hexchanges, congrArg Prod.snd hrun⟩
  · intro before after a e hsplit hbefore ha
    obtain ⟨hrun, hexchanges⟩ := Registry.ofConfigs_of_ends hsplit hbefore ha
    exact ⟨hexchanges, congrArg Prod.snd hrun⟩

example : let url := "postgres://db.local/permissions"
    ((Registry.ofConfigs names [.new "a" url true, .new "a" url false]).run
      (fun _ (s : Unit) => (some .closed, s)) ()).1 =
      .error (.connectionFailed "a" (Failure.message .closed)) := by
  rfl

end AccessControl
