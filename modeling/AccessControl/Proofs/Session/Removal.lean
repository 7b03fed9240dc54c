import AccessControl.Proofs.Session.Opening
import AccessControl.Proofs.Session.Replies

/-!
# Runs without the steps whose open failed

Over a store in memory a step whose open failed leaves no trace but the replies that it drew.
Without such steps, and with opens that all succeed, the other steps answer the same.
-/

namespace AccessControl

open Dialogue (Exchange Answers)

namespace Authority

variable {a a' : Authority} {o : Operation} {r : o.Result} {t : List (Exchange Need.Answer)}

theorem Course.of_failed_open (hc : Course a o t r a') (hf : ∃ e, .error e ∈ openings t) :
    a' = a ∧ storeCalls t = [] ∧ ∀ y ∈ openings t, y ≠ .ok () := by
  obtain ⟨e, he⟩ := hf
  cases hc with
  | unready hn hr =>
    refine ⟨rfl, ?_, ?_⟩
    · rw [storeCalls_append, hn.storeCalls_eq, hr.storeCalls_eq, List.append_nil]
    · rw [openings_append, hn.openings_eq, List.nil_append]
      cases hr <;> simp
  | served hn hr he' =>
    simp only [openings_append, hn.openings_eq, he'.openings_eq, List.nil_append,
      List.append_nil] at he
    cases hr <;> simp at he
  | _ => simp at he

end Authority

theorem Http.Script.reachable_run {α : Type} (d : Conversation α) (s : Script) :
    (d.run answer s).2.reachable = s.reachable := by
  refine Dialogue.run_keeps answer (P := fun u => u.reachable = s.reachable)
    (fun q u hu => ?_) d rfl
  rw [← hu, answer]
  split
  · split <;> rfl
  · rfl

namespace Provider

variable {left : List (Option Http.Reply)} {p u : Provider}

theorem Like.of_lookup (h : Like left p u) (user : String) : Like left (p.lookup user).2 u := by
  cases h with
  | directory d => exact .directory d
  | failing e => exact .failing e
  | @service e s u h =>
    have hreach := Http.Script.reachable_run (e.lookupGroups user) s
    exact .service ⟨h.1.trans hreach.symm, h.2⟩

theorem Like.changeDirectory (h : Like left p u) (f : Directory → Directory) :
    Like left (p.changeDirectory f) (u.changeDirectory f) := by
  cases h with
  | directory d => exact .directory (f d)
  | failing e => exact .failing e
  | service h => exact .service h

theorem replies_changeDirectory (f : Directory → Directory) :
    (p.changeDirectory f).replies = p.replies := by
  cases p <;> rfl

def withReplies (left : List (Option Http.Reply)) : Provider → Provider
  | .service e s => .service e { s with replies := left }
  | p => p

theorem like_withReplies : Like left p (p.withReplies left) := by
  cases p with
  | directory d => exact .directory d
  | failing e => exact .failing e
  | service e s => exact .service ⟨rfl, rfl⟩

end Provider

namespace Surroundings

variable {left : ProviderId → List (Option Http.Reply)} {s s' u : Surroundings} {st : Store}
  {own : PermissionConfig}

theorem Like.of_failed_open {c : PermissionConfig} (hs : s.source = .memory st)
    (hf : (s.answerOpen c).1 ≠ .ok ()) (hu : s.Like left u) : (s.answerOpen c).2.Like left u := by
  simp only [answerOpen] at hf ⊢
  split
  · exact ⟨hu.source, hu.callFaults, hu.calls, hu.openFaults, hu.length, hu.providers⟩
  · rename_i hn
    simp only [hn, hs, Source.openStore] at hf
    exact absurd rfl hf

theorem Like.of_groups (hu : s.Like left u) (i : ProviderId) (user : String) :
    (s.answerGroups i user).2.Like left u := by
  simp only [answerGroups]
  cases hp : s.providers[i]? with
  | none => exact hu
  | some p =>
    refine ⟨hu.source, hu.callFaults, hu.calls, hu.openFaults, ?_, fun j => ?_⟩
    · simp [hu.length]
    · have hj := hu.providers j
      by_cases hij : i = j
      · subst hij
        obtain ⟨hlt, -⟩ := List.getElem?_eq_some_iff.1 hp
        rw [hp] at hj
        generalize u.providers[i]? = o at hj ⊢
        cases hj with
        | some hl =>
          rw [List.getElem?_set_self hlt]
          exact .some (hl.of_lookup user)
      · rw [List.getElem?_set_ne hij]
        exact hj

theorem Like.of_answers {t : List (Exchange Need.Answer)} (hs : s.source = .memory st)
    (ho : ∀ y ∈ openings t, y ≠ .ok ()) (hc : storeCalls t = []) (ha : Answers (answer own) t s s')
    (hu : s.Like left u) : s'.Like left u := by
  induction t generalizing s with
  | nil => exact ha ▸ hu
  | cons x t ih =>
    obtain ⟨q, r⟩ := x
    obtain ⟨hr, ha⟩ := ha
    cases q with
    | store c =>
      have hr : (s.answerOpen c).1 = r := hr
      have hf : (s.answerOpen c).1 ≠ .ok () := hr ▸ ho r List.mem_cons_self
      exact ih (answerOpen_memory hs c).1 (fun y hy => ho y (List.mem_cons_of_mem r hy)) hc ha
        (hu.of_failed_open hs hf)
    | call k => cases hc
    | groups i user =>
      obtain ⟨providers, he⟩ := answerGroups_snd i user s
      refine ih ?_ ho hc ha (hu.of_groups i user)
      rw [answer, he, hs]

end Surroundings

namespace Session

structure Like (left : ProviderId → List (Option Http.Reply)) (s u : Session) : Prop where
  authorities : u.authorities = s.authorities
  surroundings : s.surroundings.Like left u.surroundings

def stocks : Stocks Session ProviderId (Option Http.Reply) where
  stock s := s.surroundings.repliesOf
  Like := Like

variable {s s' u : Session} {left : ProviderId → List (Option Http.Reply)} {n : Nat}
  {o : Operation} {r : o.Result} {x : Step} {ev : Event} {i : ProviderId}

theorem draws_perform (h : s.perform n o = some (r, s'))
    (ho : ∀ y ∈ openings (s.askedFor n o), y = .ok ()) :
    ∃ drawn, stocks.Draws (fun u u' => u.perform n o = some (r, u')) s s' drawn := by
  obtain ⟨a, a', hn, ht, ha, hs⟩ := perform_eq_some h
  obtain ⟨drawn, hd⟩ := Surroundings.draws_answers ho ha
  refine ⟨drawn, hd.stock, fun u left hl hu => ?_⟩
  obtain ⟨hauth, hsurr⟩ := hu
  obtain ⟨u', hu', hlike⟩ := hd.alike u.surroundings left hl hsurr
  exact ⟨_, perform_of_answers (hauth ▸ hn) ht hu', by rw [hauth, hs], hlike⟩

theorem repliesOf_changeDirectoryAt (f : Directory → Directory) :
    (s.changeDirectoryAt i f).surroundings.repliesOf = s.surroundings.repliesOf := by
  funext j
  simp only [Surroundings.repliesOf, changeDirectoryAt, List.getElem?_modify]
  split
  · cases s.surroundings.providers[j]? with
    | none => rfl
    | some p => exact Provider.replies_changeDirectory f
  · simp

theorem Like.changeDirectoryAt (hu : s.Like left u) (f : Directory → Directory) :
    (s.changeDirectoryAt i f).Like left (u.changeDirectoryAt i f) := by
  obtain ⟨hauth, hs⟩ := hu
  refine ⟨hauth, hs.source, hs.callFaults, hs.calls, hs.openFaults, ?_, fun j => ?_⟩
  · simp [Session.changeDirectoryAt, hs.length]
  · have hj := hs.providers j
    simp only [Session.changeDirectoryAt, List.getElem?_modify]
    generalize s.surroundings.providers[j]? = p at hj ⊢
    generalize u.surroundings.providers[j]? = q at hj ⊢
    cases hj with
    | none => exact .none
    | some h =>
      split
      · exact .some (h.changeDirectory f)
      · exact .some h

theorem draws_changeDirectoryAt {e : Event} (f : Directory → Directory)
    (hx : ∀ u : Session, u.step x =
      if i < u.surroundings.providers.length then some (e, u.changeDirectoryAt i f) else none)
    (h : s.step x = some (ev, s')) :
    stocks.Draws (fun u u' => u.step x = some (ev, u')) s s' fun _ => [] := by
  rw [hx] at h
  split at h
  · rename_i hi
    cases h
    refine ⟨fun j => ?_, fun u left _ hu => ?_⟩
    · exact congrFun (repliesOf_changeDirectoryAt f).symm j
    · have hlen : u.surroundings.providers.length = s.surroundings.providers.length :=
        hu.surroundings.length
      exact ⟨_, by rw [hx, hlen, if_pos hi], Like.changeDirectoryAt hu f⟩
  · cases h

theorem draws_give (d : Directory) (h : s.step (.give d) = some (ev, s')) :
    stocks.Draws (fun u u' => u.step (.give d) = some (ev, u')) s s' fun _ => [] := by
  cases h
  refine ⟨fun j => ?_, fun u left _ hu => ?_⟩
  · simp only [stocks, Surroundings.repliesOf, List.getElem?_append]
    split
    · rfl
    · rename_i hj
      rw [List.getElem?_eq_none (Nat.le_of_not_lt hj)]
      cases j - s.surroundings.providers.length <;> rfl
  · obtain ⟨hauth, hs⟩ := hu
    simp only [step, give, hs.length]
    refine ⟨_, rfl, hauth, hs.source, hs.callFaults, hs.calls, hs.openFaults, ?_,
      fun j => ?_⟩
    · simp [hs.length]
    · simp only [List.getElem?_append, hs.length]
      split
      · exact hs.providers j
      · cases j - s.surroundings.providers.length with
        | zero => exact .some (.directory d)
        | succ k => exact .none

theorem draws_step (h : s.step x = some (ev, s'))
    (ho : ∀ y ∈ openings (asked x s), y = .ok ()) :
    ∃ drawn, stocks.Draws (fun u u' => u.step x = some (ev, u')) s s' drawn := by
  cases x with
  | perform n o =>
    obtain ⟨hfits, r, hp, rfl⟩ := step_perform_eq_some h
    obtain ⟨drawn, hd⟩ := draws_perform hp ho
    refine ⟨drawn, hd.stock, fun u left hl hu => ?_⟩
    obtain ⟨u', hp', hu'⟩ := hd.alike u left hl hu
    have hlen : u.surroundings.providers.length = s.surroundings.providers.length :=
      hu.surroundings.length
    exact ⟨u', step_perform (hlen ▸ hfits) hp', hu'⟩
  | give d => exact ⟨_, draws_give d h⟩
  | setGroups i user gs => exact ⟨_, draws_changeDirectoryAt (·.set user gs) (fun _ => rfl) h⟩
  | removeUser i user => exact ⟨_, draws_changeDirectoryAt (·.remove user) (fun _ => rfl) h⟩

def Episode.refused (e : Episode) : Bool := (openings e.asked).any (!·.isOk)

def kept (h : List Episode) : List Episode := h.filter (!·.refused)

/-- The replies of a service that are drawn by the steps in which no open fails, and those that are
left. -/
def repliesFor (i : ProviderId) : List Step → Session → List (Option Http.Reply)
  | [], s => s.surroundings.repliesOf i
  | x :: xs, s =>
    match s.episode x with
    | none => []
    | some (e, s') =>
      let before := s.surroundings.repliesOf i
      let after := s'.surroundings.repliesOf i
      if e.refused then repliesFor i xs s'
      else before.take (before.length - after.length) ++ repliesFor i xs s'

/-- A session as it is without the steps whose open fails: all opens succeed, and no reply waits for
such a step. -/
def sparing (xs : List Step) (s : Session) : Session :=
  { s with surroundings := { s.surroundings with
    openFaults := []
    providers := s.surroundings.providers.mapIdx fun i p => p.withReplies (repliesFor i xs s) } }

variable {e : Episode} {xs : List Step} {h : List Episode} {st : Store}

theorem openings_of_not_refused (he : e.refused = false) : ∀ y ∈ openings e.asked, y = .ok () := by
  intro y hy
  have hok := List.any_eq_false.1 he y hy
  cases y with
  | error e => exact absurd rfl hok
  | ok u => rfl

theorem exists_error_of_refused (he : e.refused = true) : ∃ err, .error err ∈ openings e.asked := by
  obtain ⟨y, hy, hok⟩ := List.any_eq_true.1 he
  cases y with
  | error err => exact ⟨err, hy⟩
  | ok u => cases hok

theorem like_sparing (xs : List Step) (s : Session) :
    s.Like (fun i => repliesFor i xs s) (s.sparing xs) := by
  refine ⟨rfl, rfl, rfl, rfl, rfl, by simp [sparing], fun i => ?_⟩
  simp only [sparing, List.getElem?_mapIdx]
  cases s.surroundings.providers[i]? with
  | none => exact .none
  | some p => exact .some Provider.like_withReplies

theorem like_of_refused (hs : s.surroundings.source = .memory st) (he : s.episode x = some (e, s'))
    (hr : e.refused = true) (hu : s.Like left u) : s'.Like left u := by
  obtain ⟨err, herr⟩ := exists_error_of_refused hr
  obtain ⟨hstep, hasked⟩ := episode_eq_some he
  cases x with
  | perform n o =>
    obtain ⟨-, r, hp, -⟩ := step_perform_eq_some hstep
    obtain ⟨a, a', hn, hc, ha, hset⟩ := perform_course hp
    have hasked : e.asked = s.askedFor n o := hasked
    obtain ⟨rfl, hcalls, hopens⟩ := hc.of_failed_open ⟨err, hasked ▸ herr⟩
    obtain ⟨hauth, hsurr⟩ := hu
    refine ⟨?_, hsurr.of_answers hs hopens hcalls ha⟩
    obtain ⟨hlt, hget⟩ := List.getElem?_eq_some_iff.1 hn
    rw [hauth, hset, ← hget, List.set_getElem_self]
  | _ =>
    rw [hasked] at herr
    cases herr

theorem repliesOf_step (h : s.step x = some (ev, s')) (hi : s.surroundings.repliesOf i = []) :
    s'.surroundings.repliesOf i = [] := by
  cases x with
  | perform n o =>
    obtain ⟨-, r, hp, -⟩ := step_perform_eq_some h
    obtain ⟨a, a', -, -, ha, -⟩ := perform_eq_some hp
    exact Dialogue.answers_keeps (P := fun s => s.repliesOf i = [])
      (fun q s hs => Surroundings.repliesOf_answer a.own q s hs) ha hi
  | _ =>
    obtain ⟨drawn, hd⟩ := draws_step h (by simp [asked])
    exact (hd.eq_nil hi).2

theorem repliesFor_eq_nil (hi : s.surroundings.repliesOf i = []) : repliesFor i xs s = [] := by
  induction xs generalizing s with
  | nil => exact hi
  | cons x xs ih =>
    simp only [repliesFor]
    split
    · rfl
    · rename_i e s₁ he
      have hs₁ := repliesOf_step (episode_eq_some he).1 hi
      rw [hi, hs₁, ih hs₁]
      split <;> rfl

theorem step_source (hs : s.surroundings.source = .memory st) (h : s.step x = some (ev, s')) :
    ∃ st', s'.surroundings.source = .memory st' := by
  cases x with
  | perform n o =>
    obtain ⟨-, r, hp, -⟩ := step_perform_eq_some h
    obtain ⟨a, a', -, -, ha, -⟩ := perform_eq_some hp
    obtain ⟨st', hst', -⟩ := Surroundings.receives_of_answers hs ha
    exact ⟨st', hst'⟩
  | _ =>
    obtain ⟨-, ps, rfl⟩ := step_outside h nofun
    exact ⟨st, hs⟩

theorem step_event (h : s.step x = some (ev, s')) : ev.step = x := by
  cases x with
  | perform n o =>
    obtain ⟨-, r, -, rfl⟩ := step_perform_eq_some h
    rfl
  | _ => exact (step_outside h nofun).1

theorem run_kept (hs : s.surroundings.source = .memory st) (hrun : s.episodes xs = some (h, s'))
    (hu : s.Like (fun i => repliesFor i xs s) u) :
    ∃ u', u.run ((kept h).map (·.event.step)) = some ((kept h).map (·.event), u') := by
  -- on the steps: the other session stays like this one with the replies for those to come
  induction xs generalizing s st u h with
  | nil =>
    cases hrun
    exact ⟨u, rfl⟩
  | cons x xs ih =>
    obtain ⟨e, s₁, h₁, he, hh, rfl⟩ := runSteps_cons_eq_some hrun
    obtain ⟨hstep, hasked⟩ := episode_eq_some he
    obtain ⟨st₁, hst₁⟩ := step_source hs hstep
    cases hr : e.refused with
    | true =>
      have hkept : kept (e :: h₁) = kept h₁ := by simp [kept, hr]
      simp only [repliesFor, he, hr, if_true] at hu
      rw [hkept]
      exact ih hst₁ hh (like_of_refused hs he hr hu)
    | false =>
      have hkept : kept (e :: h₁) = e :: kept h₁ := by simp [kept, hr]
      obtain ⟨drawn, hd⟩ := draws_step hstep (hasked ▸ openings_of_not_refused hr)
      have hdrawn (i) : repliesFor i (x :: xs) s = drawn i ++ repliesFor i xs s₁ := by
        simp only [repliesFor, he, hr, hd.drawn_eq i]
        rfl
      simp only [hdrawn] at hu
      obtain ⟨u₁, hu₁, hlike⟩ := hd.alike u _ (fun i hi => repliesFor_eq_nil hi) hu
      obtain ⟨u', hu'⟩ := ih hst₁ hh hlike
      refine ⟨u', ?_⟩
      simp only [hkept, List.map_cons, run, runSteps, step_event hstep, hu₁]
      rw [run] at hu'
      rw [hu']

/-- The store is opened once in the life of an authority, when it is first needed, with a new
attempt each time it is needed after one that failed; and failed attempts do nothing to the other
steps. -/
theorem store_opened_once {s₀ : Session} (hfresh : ∀ a ∈ s₀.authorities, a.opened = false)
    (hrun : s₀.episodes xs = some (h, s)) :
    (∀ n a₀, s₀.authorities[n]? = some a₀ →
      successes (opensBy n h) ≤ 1 ∧ ∃ a, s.authorities[n]? = some a ∧
        a.hasSource = a₀.hasSource ∧ a.config = a₀.config ∧
        ∀ o, ∃ r s', s.perform n o = some (r, s') ∧
          s.OpensAsNeeded a o r (s.askedFor n o) (opensBy n h) ∧
          s'.surroundings.opens = s.surroundings.opens + (openings (s.askedFor n o)).length) ∧
    ∀ st, s₀.surroundings.source = .memory st →
      ∃ s', (s₀.sparing xs).run ((kept h).map (·.event.step)) =
        some ((kept h).map (·.event), s') := by
  refine ⟨fun n a₀ hn => ?_, fun st hs => run_kept hs hrun (like_sparing xs s₀)⟩
  exact opens_of_run hrun hn (hfresh a₀ (List.mem_of_getElem? hn))

theorem store_opened_once_retried :
    let p : Permission := ⟨"dashboard-1", "view"⟩
    let r : Role := ⟨"ops", "Operators"⟩
    let a : Authority := .new true (some .standard) none
    let s₀ : Session :=
      ⟨[a, a], ⟨.memory .empty, [], [some (.storage "down")], [], 0, []⟩⟩
    let xs : List Step := [.perform 0 (.add p), .perform 0 (.add p), .perform 1 (.grant p r)]
    ∃ h s, s₀.episodes xs = some (h, s) ∧ opensBy 0 h = [.error (.storage "down"), .ok ()] ∧
      successes (opensBy 0 h) ≤ 1 ∧
      ∃ s', (s₀.sparing xs).run [.perform 0 (.add p), .perform 1 (.grant p r)] =
        some ([⟨.perform 0 (.add p), .ok ()⟩, ⟨.perform 1 (.grant p r), .ok ()⟩], s') := by
  intro p r a s₀ xs
  obtain ⟨h, s, hrun, hkeeps⟩ : ∃ h s, s₀.episodes xs = some (h, s) ∧
      opensBy 0 h = [.error (.storage "down"), .ok ()] ∧ (kept h).map (·.event) =
        [⟨.perform 0 (.add p), .ok ()⟩, ⟨.perform 1 (.grant p r), .ok ()⟩] :=
    ⟨_, _, rfl, rfl, rfl⟩
  obtain ⟨hopens, hkept⟩ := store_opened_once (by decide) hrun
  obtain ⟨s', hs'⟩ := hkept .empty rfl
  have hsteps : (kept h).map (·.event.step) = ((kept h).map (·.event)).map (·.step) := by
    rw [List.map_map]
    rfl
  rw [hsteps, hkeeps.2] at hs'
  exact ⟨h, s, hrun, hkeeps.1, (hopens 0 a rfl).1, s', hs'⟩

end Session

end AccessControl
