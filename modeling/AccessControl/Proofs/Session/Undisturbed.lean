import AccessControl.Proofs.Session.Episode
import AccessControl.Proofs.Session.Outcome
import AccessControl.Proofs.Session.Surroundings

/-!
# Sessions without faults

Over a store in memory and with no fault scheduled, an operation answers what it answers on the
store alone, whatever providers there are and whatever they answer.
-/

namespace AccessControl

open Dialogue (Exchange Answers)

structure Session.Undisturbed (st : Store) (s : Session) : Prop where
  surroundings : s.surroundings.Undisturbed st
  configured : ∀ a ∈ s.authorities, a.Configured

namespace Authority

variable {a a' : Authority} {o : Operation} {r : o.Result} {t t₀ : List (Exchange Need.Answer)}
  {roles : List Role} {st st' : Store} {x : Except AuthorityError Authority}

theorem Configured.ready_of_opened (ha : a.Configured) (ho : ∀ y ∈ openings t, y = .ok ())
    (hr : Readying a t x) : ∃ a', x = .ok a' ∧ a'.Configured := by
  obtain ⟨c, hc⟩ := ha.config
  cases hr with
  | held h => exact ⟨a, rfl, ha⟩
  | sourceless h hs => cases ha.source.symm.trans hs
  | unconfigured h hs hn => cases hc.symm.trans hn
  | refused h hs hn => cases ho _ List.mem_cons_self
  | opening h hs hn => exact ⟨_, rfl, ha.source, c, hc⟩

theorem report_of_answers {k : StoreCall} {y : k.Result}
    (h : Answers Store.apply [⟨k, y⟩] st st') : st.report k = (y.mapError .store, st') := by
  obtain ⟨hy, hst⟩ := h
  simp only [Store.report, hy]
  exact congrArg _ hst

theorem Errand.onStore (he : Errand roles o t r) (hn : Needing a o t₀ roles)
    (hs : Answers Store.apply (storeCalls t) st st') :
    ∃ lookup : String → Except AuthorityError (List Group),
      Storeless lookup ∧ o.onStore lookup st = (r, st') := by
  have hnone : Storeless fun _ => .ok [] := fun _ _ => nofun
  cases he with
  | add => exact ⟨_, hnone, report_of_answers hs⟩
  | stopped => cases hs.1
  | delete => exact ⟨_, hnone, report_of_answers hs.2⟩
  | grant => exact ⟨_, hnone, report_of_answers hs⟩
  | revokeAll => exact ⟨_, hnone, report_of_answers hs⟩
  | revoke => exact ⟨_, hnone, report_of_answers hs⟩
  | grantedRoles => exact ⟨_, hnone, report_of_answers hs⟩
  | check =>
    cases hn with
    | managing ho => cases ho
    | @checking _ _ i gs hp hgs =>
      refine ⟨fun _ => .ok gs, fun _ _ => nofun, ?_⟩
      simp only [Operation.onStore, List.isEmpty_iff, if_neg hgs]
      exact report_of_answers hs

/-- A course without faults is what the operation is on the store alone, for some outcome of looking
up the user. -/
theorem Course.onStore (hc : Course a o t r a') (ha : a.Configured)
    (ho : ∀ y ∈ openings t, y = .ok ()) (hs : Answers Store.apply (storeCalls t) st st') :
    a'.Configured ∧ ∃ lookup : String → Except AuthorityError (List Group),
      Storeless lookup ∧ o.onStore lookup st = (r, st') := by
  cases hc with
  | bind i =>
    cases hs
    exact ⟨⟨ha.source, ha.config⟩, fun _ => .ok [], fun _ _ => nofun, rfl⟩
  | unbind =>
    cases hs
    exact ⟨⟨ha.source, ha.config⟩, fun _ => .ok [], fun _ _ => nofun, rfl⟩
  | unbound hp =>
    cases hs
    exact ⟨ha, fun _ => .error (.configuration _), fun _ _ => nofun, rfl⟩
  | @unresolved user p i e hp =>
    cases hs
    exact ⟨ha, fun _ => .error (.roleResolution user e), fun _ _ => nofun, rfl⟩
  | roleless hp =>
    cases hs
    exact ⟨ha, fun _ => .ok [], fun _ _ => nofun, rfl⟩
  | unready hn hr =>
    rw [openings_append, hn.openings_eq, List.nil_append] at ho
    obtain ⟨a', hx, -⟩ := ha.ready_of_opened ho hr
    cases hx
  | @served _ t₀ t₁ t₂ _ _ _ hn hr he =>
    simp only [openings_append, hn.openings_eq, he.openings_eq, List.nil_append,
      List.append_nil] at ho
    simp only [storeCalls_append, hn.storeCalls_eq, hr.storeCalls_eq, List.nil_append] at hs
    obtain ⟨a₁, hx, ha'⟩ := ha.ready_of_opened ho hr
    cases hx
    exact ⟨ha', he.onStore hn hs⟩

end Authority

namespace Session

variable {s s' : Session} {st : Store} {n : Nat} {o : Operation} {r : o.Result}

theorem Undisturbed.perform (hs : s.Undisturbed st) (h : s.perform n o = some (r, s')) :
    ∃ lookup : String → Except AuthorityError (List Group),
      Storeless lookup ∧ r = (o.onStore lookup st).1 ∧
        s'.Undisturbed (o.onStore lookup st).2 ∧
        s'.authorities.length = s.authorities.length := by
  obtain ⟨a, a', hn, hc, ha, hset⟩ := perform_course h
  have hconf := hs.configured a (List.mem_of_getElem? hn)
  obtain ⟨ho, st', hu, hk⟩ := hs.surroundings.of_answers ha
  obtain ⟨ha', lookup, hl, he⟩ := hc.onStore hconf ho hk
  refine ⟨lookup, hl, ?_⟩
  rw [he]
  refine ⟨rfl, ⟨hu, fun b hb => ?_⟩, by rw [hset, List.length_set]⟩
  rw [hset] at hb
  rcases List.mem_or_eq_of_mem_set hb with hb | rfl
  · exact hs.configured b hb
  · exact ha'

end Session

end AccessControl
