import AccessControl.Authority.Session
import AccessControl.Proofs.Authority.Course
import AccessControl.Proofs.Permission.Holding

/-!
# What surroundings keep

Each answer changes one part of the surroundings. Along a transcript the opens and calls are counted
as they were asked, and a store in memory goes through the calls that reach it, which are all of
them where no fault is scheduled.
-/

namespace AccessControl

open Dialogue (Exchange Answers)

/-- A call reaches the store, or it fails before and leaves the store alone. -/
inductive Store.Receives (st : Store) : Exchange StoreCall.Result → Store → Prop
  | reached (k : StoreCall) : Receives st ⟨k, (Store.apply k st).1⟩ (Store.apply k st).2
  | lost (k : StoreCall) (e : StoreError) : Receives st ⟨k, .error e⟩ st

def Store.ReceivesAll : List (Exchange StoreCall.Result) → Store → Store → Prop
  | [], st, st' => st = st'
  | x :: xs, st, st' => ∃ m, Receives st x m ∧ ReceivesAll xs m st'

section

variable {x : Exchange StoreCall.Result} {st st' : Store}

theorem Store.Receives.eq_of_error {e : StoreError} (h : st.Receives x st') (hx : x.2 = .error e) :
    st' = st := by
  cases h with
  | reached k => exact Store.apply_snd_of_error hx
  | lost k e => rfl

theorem Store.Receives.eq_of_ok {a : x.1.Answer} (h : st.Receives x st') (hx : x.2 = .ok a) :
    st' = (Store.apply x.1 st).2 := by
  cases h with
  | reached k => rfl
  | lost k e => cases hx

end

namespace Surroundings

variable {s u : Surroundings} {own c : PermissionConfig} {k : StoreCall} {i : ProviderId}
  {user : String} {st : Store} {t : List (Exchange Need.Answer)}

theorem answerOpen_snd (c : PermissionConfig) (s : Surroundings) :
    ∃ source, (s.answerOpen c).2 =
      { s with source, openFaults := s.openFaults.tail, opens := s.opens + 1 } := by
  simp only [answerOpen]
  split
  · exact ⟨_, rfl⟩
  · exact ⟨_, rfl⟩

theorem answerCall_snd (own : PermissionConfig) (k : StoreCall) (s : Surroundings) :
    ∃ source, (s.answerCall own k).2 = { s with source, calls := s.calls ++ [k] } := by
  simp only [answerCall]
  split
  · exact ⟨_, rfl⟩
  · exact ⟨_, rfl⟩

theorem answerGroups_snd (i : ProviderId) (user : String) (s : Surroundings) :
    ∃ providers, (s.answerGroups i user).2 = { s with providers } := by
  simp only [answerGroups]
  split
  · exact ⟨_, rfl⟩
  · exact ⟨_, rfl⟩

theorem counts_of_answers (h : Answers (answer own) t s u) :
    u.opens = s.opens + (openings t).length ∧ u.calls = s.calls ++ (storeCalls t).map (·.1) := by
  induction t generalizing s with
  | nil =>
    cases h
    simp
  | cons x t ih =>
    obtain ⟨q, r⟩ := x
    obtain ⟨ho, hc⟩ := ih h.2
    cases q with
    | store c =>
      obtain ⟨source, hs⟩ := answerOpen_snd c s
      simp only [answer, hs] at ho hc
      refine ⟨?_, by simpa using hc⟩
      simp only [ho, openings_store, List.length_cons]
      omega
    | call k =>
      obtain ⟨source, hs⟩ := answerCall_snd own k s
      simp only [answer, hs] at ho hc
      simp [ho, hc]
    | groups i user =>
      obtain ⟨providers, hs⟩ := answerGroups_snd i user s
      simp only [answer, hs] at ho hc
      simp [ho, hc]

theorem answerOpen_memory (hs : s.source = .memory st) (c : PermissionConfig) :
    (s.answerOpen c).2.source = .memory st ∧
      (s.answerOpen c).1 =
        match s.openFaults.head?.getD none with
        | some e => .error e
        | none => .ok () := by
  simp only [answerOpen]
  cases s.openFaults.head?.getD none with
  | some e => exact ⟨hs, rfl⟩
  | none => simp [hs, Source.openStore]

theorem answerCall_of_unfaulted (own : PermissionConfig) (hs : s.source = .memory st)
    (hf : s.fault? k = none) :
    (s.answerCall own k).1 = (Store.apply k st).1 ∧
      (s.answerCall own k).2.source = .memory (Store.apply k st).2 := by
  simp only [answerCall, hf, hs, Source.call, and_self]

theorem fault?_congr (hf : u.callFaults = s.callFaults)
    (hc : (u.calls.filter fun c => c.method = k.method) =
      s.calls.filter fun c => c.method = k.method) :
    u.fault? k = s.fault? k := by
  simp only [fault?, hf, hc]

theorem fault?_answerCall {k' : StoreCall} (hk : k'.method ≠ k.method) :
    (s.answerCall own k').2.fault? k = s.fault? k := by
  obtain ⟨source, he⟩ := answerCall_snd own k' s
  rw [he]
  -- calls of another kind do not count
  exact fault?_congr rfl (by simp [hk])

theorem fault?_answerOpen : (s.answerOpen c).2.fault? k = s.fault? k := by
  obtain ⟨source, he⟩ := answerOpen_snd c s
  rw [he]
  exact fault?_congr rfl rfl

theorem answerCall_memory (hs : s.source = .memory st) (k : StoreCall) :
    ∃ st', (s.answerCall own k).2.source = .memory st' ∧
      st.Receives ⟨k, (s.answerCall own k).1⟩ st' := by
  simp only [answerCall]
  split
  · exact ⟨st, hs, .lost k _⟩
  · simp only [hs, Source.call]
    exact ⟨_, rfl, .reached k⟩

theorem receives_of_answers (hs : s.source = .memory st) (h : Answers (answer own) t s u) :
    ∃ st', u.source = .memory st' ∧ Store.ReceivesAll (storeCalls t) st st' := by
  induction t generalizing s st with
  | nil =>
    cases h
    exact ⟨st, hs, rfl⟩
  | cons x t ih =>
    obtain ⟨q, r⟩ := x
    obtain ⟨hr, h⟩ := h
    cases q with
    | store c => exact ih (answerOpen_memory hs c).1 h
    | call k =>
      have hr : (s.answerCall own k).1 = r := hr
      obtain ⟨m, hm, hk⟩ := answerCall_memory hs k
      obtain ⟨st', hu, ha⟩ := ih hm h
      exact ⟨st', hu, m, hr ▸ hk, ha⟩
    | groups i user =>
      obtain ⟨providers, hp⟩ := answerGroups_snd i user s
      refine ih ?_ h
      simp only [answer, hp, hs]

end Surroundings

/-- Surroundings with a store in memory and no fault scheduled. -/
structure Surroundings.Undisturbed (st : Store) (s : Surroundings) : Prop where
  source : s.source = .memory st
  opens : ∀ f ∈ s.openFaults, f = none
  calls : s.callFaults = []

namespace Surroundings.Undisturbed

variable {st : Store} {s u : Surroundings} {own : PermissionConfig}
  {t : List (Exchange Need.Answer)}

theorem answerOpen (hs : s.Undisturbed st) (c : PermissionConfig) :
    (s.answerOpen c).1 = .ok () ∧ (s.answerOpen c).2.Undisturbed st := by
  have hf : s.openFaults.head?.getD none = none := by
    cases he : s.openFaults with
    | nil => rfl
    | cons f fs => exact hs.opens f (he ▸ List.mem_cons_self)
  obtain ⟨hm, hr⟩ := answerOpen_memory hs.source c
  rw [hf] at hr
  obtain ⟨source, he⟩ := answerOpen_snd c s
  rw [he] at hm ⊢
  exact ⟨hr, hm, fun f hf => hs.opens f (List.mem_of_mem_tail hf), hs.calls⟩

theorem answerCall (hs : s.Undisturbed st) (own : PermissionConfig) (k : StoreCall) :
    (s.answerCall own k).1 = (Store.apply k st).1 ∧
      (s.answerCall own k).2.Undisturbed (Store.apply k st).2 := by
  have hf : s.fault? k = none := by simp [fault?, hs.calls]
  obtain ⟨hr, hm⟩ := answerCall_of_unfaulted own hs.source hf
  obtain ⟨source, he⟩ := answerCall_snd own k s
  rw [he] at hm ⊢
  exact ⟨hr, hm, hs.opens, hs.calls⟩

theorem answerGroups (hs : s.Undisturbed st) (i : ProviderId) (user : String) :
    (s.answerGroups i user).2.Undisturbed st := by
  obtain ⟨providers, he⟩ := answerGroups_snd i user s
  rw [he]
  exact ⟨hs.source, hs.opens, hs.calls⟩

theorem withProviders (hs : s.Undisturbed st) (ps : List Provider) :
    Surroundings.Undisturbed st { s with providers := ps } :=
  ⟨hs.source, hs.opens, hs.calls⟩

theorem of_answers (hs : s.Undisturbed st) (h : Answers (answer own) t s u) :
    (∀ x ∈ openings t, x = .ok ()) ∧
      ∃ st', u.Undisturbed st' ∧ Answers Store.apply (storeCalls t) st st' := by
  induction t generalizing s st with
  | nil =>
    cases h
    exact ⟨by simp, st, hs, rfl⟩
  | cons x t ih =>
    obtain ⟨q, r⟩ := x
    obtain ⟨hr, h⟩ := h
    cases q with
    | store c =>
      obtain ⟨hc, hs'⟩ := hs.answerOpen c
      obtain ⟨ho, ha⟩ := ih hs' h
      have hr : (s.answerOpen c).1 = r := hr
      exact ⟨List.forall_mem_cons.2 ⟨hr.symm.trans hc, ho⟩, ha⟩
    | call k =>
      obtain ⟨hk, hs'⟩ := hs.answerCall own k
      obtain ⟨ho, st', hu, ha⟩ := ih hs' h
      have hr : (s.answerCall own k).1 = r := hr
      exact ⟨ho, st', hu, hk.symm.trans hr, ha⟩
    | groups i user => exact ih (hs.answerGroups i user) h

end Surroundings.Undisturbed

end AccessControl
