import AccessControl.Proofs.Session.Settlement

/-!
# Where a failure comes from

An operation with its store open has a plan: the calls it makes on the store, in order, unless one
of them fails. The first call that fails ends it and is the failure it reports. A check that does
not learn the groups of its user fails before it calls anything.
-/

namespace AccessControl

open Dialogue (Exchange Answers)

/-- The calls that an operation makes on the store if none of them fails. A check makes them about
the groups of its user. -/
def Operation.plan (gs : List Group) : Operation → List StoreCall
  | .add p => [.insert p]
  | .delete p => [.revokeAll p, .delete p]
  | .grant p r => [.grant p r]
  | .revokeAll p => [.revokeAll p]
  | .revoke p r => [.revoke p r]
  | .grantedRoles p => [.grantedRoles p]
  | .check _ p => if gs.isEmpty then [] else [.hasAny (gs.map fun g => ⟨g.id, g.displayName⟩) p]
  | .bind _ => []
  | .unbind => []

/-- Calls made one after another, each once, up to the first that fails. -/
inductive Carried : List StoreCall → List (Exchange StoreCall.Result) → Prop
  | nil : Carried [] []
  | failed {k : StoreCall} {ks : List StoreCall} (e : StoreError) :
    Carried (k :: ks) [⟨k, .error e⟩]
  | next {k : StoreCall} {ks : List StoreCall} {xs : List (Exchange StoreCall.Result)}
      (v : k.Answer) (h : Carried ks xs) : Carried (k :: ks) (⟨k, .ok v⟩ :: xs)

/-- A result that calls account for: it is a success if all of them are, and else the failure of the
last of them, which is the first that failed. -/
structure Accounted {α : Type} (plan : List StoreCall) (xs : List (Exchange StoreCall.Result))
    (r : Except AuthorityError α) : Prop where
  carried : Carried plan xs
  succeeds : r.isOk = true ↔ ∀ x ∈ xs, x.2.isOk = true
  fails : ∀ err, r = .error err ↔ ∃ before k e, xs = before ++ [⟨k, .error e⟩] ∧
    (∀ x ∈ before, x.2.isOk = true) ∧ err = .store e ∧ err.message = e.message

section

variable {α : Type} {k : StoreCall} {ks : List StoreCall} {xs : List (Exchange StoreCall.Result)}
  {r : Except AuthorityError α}

theorem accounted_nil (v : α) : Accounted [] [] (.ok v) where
  carried := .nil
  succeeds := iff_of_true rfl nofun
  fails _ := iff_of_false nofun fun ⟨_, _, _, h, _⟩ => by simp at h

theorem accounted_failed (e : StoreError) :
    Accounted (k :: ks) [⟨k, .error e⟩] (.error (.store e) : Except AuthorityError α) where
  carried := .failed e
  succeeds := iff_of_false nofun fun h => nomatch h _ List.mem_cons_self
  fails err := by
    constructor
    · rintro ⟨⟩
      exact ⟨[], k, e, rfl, nofun, rfl, rfl⟩
    · rintro ⟨before, k', e', h, -, rfl, -⟩
      obtain ⟨rfl, he⟩ := List.append_eq_singleton_iff.1 h.symm |>.resolve_right (by simp)
      cases he
      rfl

theorem Accounted.cons (h : Accounted ks xs r) (v : k.Answer) :
    Accounted (k :: ks) (⟨k, .ok v⟩ :: xs) r where
  carried := .next v h.carried
  succeeds := by
    rw [h.succeeds, List.forall_mem_cons]
    exact (and_iff_right rfl).symm
  fails err := by
    rw [h.fails]
    constructor
    · rintro ⟨before, k', e, rfl, hok, he⟩
      exact ⟨⟨k, .ok v⟩ :: before, k', e, rfl, List.forall_mem_cons.2 ⟨rfl, hok⟩, he⟩
    · rintro ⟨before, k', e, hx, hok, he⟩
      cases before with
      | nil => cases hx
      | cons y before =>
        obtain ⟨-, rfl⟩ := List.cons.inj hx
        exact ⟨before, k', e, rfl, (List.forall_mem_cons.1 hok).2, he⟩

theorem accounted_call (k : StoreCall) (x : k.Result) :
    Accounted [k] [⟨k, x⟩] (x.mapError AuthorityError.store) := by
  cases x with
  | error e => exact accounted_failed e
  | ok v => exact (accounted_nil v).cons v

end

namespace Authority

variable {a a' : Authority} {o : Operation} {r : o.Result} {t : List (Exchange Need.Answer)}
  {s u : Surroundings} {roles : List Role} {gs : List Group} {own : PermissionConfig}

def resolves (a : Authority) (ps : List Provider) : Operation → Except AuthorityError (List Group)
  | .check user _ => a.learns ps user
  | _ => .ok []

theorem Errand.accounted (he : Errand roles o t r)
    (hroles : ∀ user p, o = .check user p → gs ≠ [] ∧ roles = Role.ofGroups gs) :
    Accounted (o.plan gs) (storeCalls t) r := by
  cases he with
  | stopped => exact accounted_failed _
  | @delete p x => exact (accounted_call (.delete p) x).cons (k := .revokeAll p) ()
  | check =>
    obtain ⟨hgs, rfl⟩ := hroles _ _ rfl
    simp only [Operation.plan, List.isEmpty_iff, if_neg hgs]
    exact accounted_call (.hasAny (Role.ofGroups gs) _) _
  | _ => exact accounted_call _ _

theorem Readying.of_opened {x : Except AuthorityError Authority} (hr : Readying a t x)
    (ho : a.opened = true) : x = .ok a ∧ t = [] := by
  cases hr with
  | held => exact ⟨rfl, rfl⟩
  | sourceless h => simp [ho] at h
  | unconfigured h => simp [ho] at h
  | refused h => simp [ho] at h
  | opening h => simp [ho] at h

theorem Needing.resolves_eq {t₀ : List (Exchange Need.Answer)} (hn : Needing a o t₀ roles)
    (h : Answers (Surroundings.answer own) t₀ s u) :
    ∃ gs, a.resolves s.providers o = .ok gs ∧
      ∀ user p, o = .check user p → gs ≠ [] ∧ roles = Role.ofGroups gs := by
  have hsettles := hn.settles h
  cases hn with
  | managing ho =>
    cases o with
    | check user p => cases ho
    | _ => exact ⟨[], rfl, nofun⟩
  | @checking user p i =>
    obtain ⟨gs, hgs, hl, hroles⟩ := hsettles.2.2 user p rfl
    exact ⟨gs, hl, fun _ _ _ => ⟨hgs, hroles⟩⟩

theorem accounts_of_error {err : AuthorityError} {xs : List (Exchange StoreCall.Result)}
    (hres : a.resolves s.providers o = .error err) (hr : r = .error err) (hxs : xs = []) :
    (∀ e, a.resolves s.providers o = .error e → r = .error e ∧ xs = []) ∧
      ∀ gs, a.resolves s.providers o = .ok gs → Accounted (o.plan gs) xs r := by
  rw [hres]
  refine ⟨fun e he => ?_, fun gs hgs => ?_⟩
  · cases he
    exact ⟨hr, hxs⟩
  · cases hgs

theorem accounts_of_ok {xs : List (Exchange StoreCall.Result)}
    (hres : a.resolves s.providers o = .ok gs) (hacc : Accounted (o.plan gs) xs r) :
    (∀ e, a.resolves s.providers o = .error e → r = .error e ∧ xs = []) ∧
      ∀ gs, a.resolves s.providers o = .ok gs → Accounted (o.plan gs) xs r := by
  rw [hres]
  refine ⟨fun e he => ?_, fun gs' hgs => ?_⟩
  · cases he
  · cases hgs
    exact hacc

theorem Course.accounted (hc : Course a o t r a') (ho : a.opened = true)
    (h : Answers (Surroundings.answer own) t s u) :
    openings t = [] ∧
      (∀ err, a.resolves s.providers o = .error err → r = .error err ∧ storeCalls t = []) ∧
      ∀ gs, a.resolves s.providers o = .ok gs → Accounted (o.plan gs) (storeCalls t) r := by
  cases hc with
  | bind i => exact ⟨rfl, accounts_of_ok rfl (accounted_nil ())⟩
  | unbind => exact ⟨rfl, accounts_of_ok rfl (accounted_nil ())⟩
  | @unbound user p hp =>
    have hl : a.learns s.providers user = _ := learns_of_unbound hp
    exact ⟨rfl, accounts_of_error hl rfl rfl⟩
  | @unresolved user p i e hp =>
    have hl := learns_of_error hp h.1
    exact ⟨rfl, accounts_of_error hl rfl rfl⟩
  | @roleless user p i hp =>
    have hl := learns_of_ok hp h.1
    exact ⟨rfl, accounts_of_ok hl (accounted_nil false)⟩
  | unready hn hr =>
    obtain ⟨hx, -⟩ := hr.of_opened ho
    cases hx
  | @served _ t₀ t₁ t₂ _ _ _ hn hr he =>
    -- nothing was asked in between, so the groups are those known from the start
    obtain ⟨-, rfl⟩ := hr.of_opened ho
    rw [List.append_nil] at h ⊢
    obtain ⟨m, hg, -⟩ := Dialogue.answers_append.1 h
    obtain ⟨gs, hres, hroles⟩ := hn.resolves_eq hg
    rw [openings_append, storeCalls_append, hn.openings_eq, hn.storeCalls_eq, he.openings_eq]
    exact ⟨rfl, accounts_of_ok hres (he.accounted hroles)⟩

end Authority

namespace Session

variable {s₀ s s' : Session} {xs : List Step} {h : List Episode}

def Episode.calls (e : Episode) : List StoreCall := (storeCalls e.asked).map (·.1)

theorem calls_of_episode {x : Step} {e : Episode} (he : s.episode x = some (e, s')) :
    s'.surroundings.calls = s.surroundings.calls ++ e.calls := by
  obtain ⟨hs, hasked⟩ := episode_eq_some he
  cases x with
  | perform n o =>
    obtain ⟨-, r, hp, -⟩ := step_perform_eq_some hs
    obtain ⟨a, a', -, -, ha, -⟩ := perform_eq_some hp
    rw [Episode.calls, hasked]
    exact (Surroundings.counts_of_answers ha).2
  | _ =>
    obtain ⟨-, ps, rfl⟩ := step_outside hs nofun
    rw [Episode.calls, hasked]
    exact (List.append_nil _).symm

theorem calls_of_run (hrun : s₀.episodes xs = some (h, s)) :
    s.surroundings.calls = s₀.surroundings.calls ++ h.flatMap Episode.calls := by
  refine runSteps_keeps
    (P := fun h s => s.surroundings.calls = s₀.surroundings.calls ++ h.flatMap Episode.calls)
    (fun x _ h s e s' hs he => ?_) (h := []) (List.append_nil _).symm hrun
  rw [calls_of_episode he, hs, List.append_assoc, List.flatMap_append, List.flatMap_singleton]

/-- After any run, whatever failed in it, an operation of an authority whose store is open makes the
calls of its plan up to the first that fails. These account for its result, unless it is a check
that is told of no groups: this one calls nothing and fails as the lookup did. -/
theorem calls_account_for_result (hrun : s₀.episodes xs = some (h, s)) :
    s.surroundings.calls = s₀.surroundings.calls ++ h.flatMap Episode.calls ∧
    ∀ n a, s.authorities[n]? = some a → a.opened = true → ∀ o, ∃ r s',
      s.perform n o = some (r, s') ∧
      let t := s.askedFor n o
      openings t = [] ∧
      s'.surroundings.calls = s.surroundings.calls ++ (storeCalls t).map (·.1) ∧
      (∀ err, a.resolves s.surroundings.providers o = .error err →
        r = .error err ∧ storeCalls t = []) ∧
      ∀ gs, a.resolves s.surroundings.providers o = .ok gs →
        Accounted (o.plan gs) (storeCalls t) r := by
  refine ⟨calls_of_run hrun, fun n a hn ho o => ?_⟩
  obtain ⟨r, s', hp⟩ := exists_perform hn o
  obtain ⟨b, a', hb, hc, ha, -⟩ := perform_course hp
  cases hn.symm.trans hb
  obtain ⟨hopen, herr, hok⟩ := hc.accounted ho ha
  exact ⟨r, s', hp, hopen, (Surroundings.counts_of_answers ha).2, herr, hok⟩

theorem calls_account_for_result_counted :
    let p : Permission := ⟨"dashboard-1", "view"⟩
    let s₀ : Session := ⟨[.new true (some .standard) none],
      ⟨.memory .empty, [], [], [⟨.revokeAll, 2, fun _ => .storage "disk full"⟩], 0, []⟩⟩
    ∃ h s s', s₀.episodes [.perform 0 (.add p), .perform 0 (.revokeAll p)] = some (h, s) ∧
      s.surroundings.calls = [.insert p, .revokeAll p] ∧
      s.perform 0 (.delete p) = some (.error (.store (.storage "disk full")), s') ∧
      s'.surroundings.calls = [.insert p, .revokeAll p, .revokeAll p] ∧
      Carried [.revokeAll p, .delete p] [⟨.revokeAll p, .error (.storage "disk full")⟩] := by
  intro p s₀
  obtain ⟨h, s, hrun, hauth, hcalls, hasked⟩ : ∃ h s,
      s₀.episodes [.perform 0 (.add p), .perform 0 (.revokeAll p)] = some (h, s) ∧
      s.authorities = [⟨true, some .standard, none, true⟩] ∧
      s.surroundings.calls = [.insert p, .revokeAll p] ∧
      storeCalls (s.askedFor 0 (.delete p)) = [⟨.revokeAll p, .error (.storage "disk full")⟩] :=
    ⟨_, _, rfl, rfl, rfl, rfl⟩
  obtain ⟨-, hops⟩ := calls_account_for_result hrun
  obtain ⟨r, s', hp, -, hcalls', -, hok⟩ := hops 0 _ (by rw [hauth]; rfl) rfl (.delete p)
  rw [hasked] at hcalls' hok
  have hacc := hok [] rfl
  obtain rfl : r = .error (.store (.storage "disk full")) :=
    (hacc.fails _).2 ⟨[], _, _, rfl, nofun, rfl, rfl⟩
  exact ⟨h, s, s', hrun, hcalls, hp, by rw [hcalls', hcalls]; rfl, hacc.carried⟩

/-- A stranger to the directory: no call is made on the open store, so none fails, and yet the check
answers neither with a decision nor with a failure of the store. -/
theorem check_of_stranger_fails_uncalled :
    let p : Permission := ⟨"dashboard-1", "view"⟩
    let s₀ : Session := fresh .standard [some 0] [.empty]
    ∃ h s r s', s₀.episodes [.perform 0 (.add p)] = some (h, s) ∧
      s.authorities.map (·.opened) = [true] ∧ s.perform 0 (.check "mallory" p) = some (r, s') ∧
      storeCalls (s.askedFor 0 (.check "mallory" p)) = [] ∧
      ¬ (r.isOk = true ↔ ∀ x ∈ storeCalls (s.askedFor 0 (.check "mallory" p)), x.2.isOk = true) ∧
      ∀ e, r ≠ .error (.store e) := by
  intro p s₀
  obtain ⟨h, s, s', hrun, hopen, hp, hcalls⟩ : ∃ h s s',
      s₀.episodes [.perform 0 (.add p)] = some (h, s) ∧ s.authorities.map (·.opened) = [true] ∧
      s.perform 0 (.check "mallory" p) =
        some (.error (.roleResolution "mallory" (.userNotFound "mallory")), s') ∧
      storeCalls (s.askedFor 0 (.check "mallory" p)) = [] := ⟨_, _, _, rfl, rfl, rfl, rfl⟩
  refine ⟨h, s, _, s', hrun, hopen, hp, hcalls, ?_, nofun⟩
  rw [hcalls]
  exact fun hiff => nomatch hiff.2 nofun

end Session

end AccessControl
