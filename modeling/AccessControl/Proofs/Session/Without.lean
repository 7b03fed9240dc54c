import AccessControl.Proofs.Permission.Apart
import AccessControl.Proofs.Session.Episode
import AccessControl.Proofs.Session.Surroundings

/-!
# A session without a permission

Steps that name other permissions go the same way in a session whose store does not have a
permission, whatever fails meanwhile. A store made of tables is left as it is.
-/

namespace AccessControl

open Dialogue (Exchange Answers answers_map)

variable {p : Permission} {c : PermissionConfig} {k : StoreCall}

theorem Store.ReceivesAll.roles?_eq {xs : List (Exchange StoreCall.Result)} {st st' : Store}
    (h : st.ReceivesAll xs st') (hx : ∀ x ∈ xs, x.1.permission ≠ p) :
    st'.roles? p = st.roles? p := by
  induction xs generalizing st with
  | nil => rw [h]
  | cons x xs ih =>
    obtain ⟨m, hm, hr⟩ := h
    rw [ih hr fun y hy => hx y (List.mem_cons_of_mem x hy)]
    cases hm with
    | reached k => exact Store.roles?_apply_of_ne (hx _ List.mem_cons_self)
    | lost k e => rfl

namespace Source

def without (p : Permission) : Source → Source
  | .memory st => .memory (st.remove p)
  | .tables r s => .tables r s

variable {source : Source}

theorem openStore_without :
    (source.without p).openStore c =
      ((source.openStore c).1, (source.openStore c).2.without p) := by
  cases source <;> rfl

theorem call_without (h : k.permission ≠ p) :
    (source.without p).call c k = ((source.call c k).1, (source.call c k).2.without p) := by
  cases source with
  | memory st => simp only [without, call, Store.apply_remove_of_ne h]
  | tables r s => rfl

end Source

namespace Surroundings

def without (p : Permission) (s : Surroundings) : Surroundings :=
  { s with source := s.source.without p }

variable {s : Surroundings} {st : Store}

theorem without_source (hs : s.source = .memory st) :
    (s.without p).source = .memory (st.remove p) := by
  rw [without, hs, Source.without]

theorem answerOpen_without :
    (s.without p).answerOpen c = ((s.answerOpen c).1, (s.answerOpen c).2.without p) := by
  simp only [answerOpen, without]
  split
  · rfl
  · simp only [Source.openStore_without]

theorem answerCall_without (h : k.permission ≠ p) :
    (s.without p).answerCall c k = ((s.answerCall c k).1, (s.answerCall c k).2.without p) := by
  have hf : (s.without p).fault? k = s.fault? k := rfl
  simp only [answerCall, hf]
  split
  · rfl
  · simp only [without, Source.call_without h]

theorem answerGroups_without {i : ProviderId} {user : String} :
    (s.without p).answerGroups i user =
      ((s.answerGroups i user).1, (s.answerGroups i user).2.without p) := by
  have hp : (s.without p).providers = s.providers := rfl
  simp only [answerGroups, hp]
  split <;> rfl

theorem answers_without {t : List (Exchange Need.Answer)} {u : Surroundings}
    (ht : ∀ y ∈ storeCalls t, y.1.permission ≠ p) (h : Answers (answer c) t s u) :
    Answers (answer c) t (s.without p) (u.without p) := by
  refine answers_map (fun x hx s => ?_) h
  obtain ⟨q, r⟩ := x
  cases q with
  | store c => exact answerOpen_without
  | call k => exact answerCall_without (ht ⟨k, r⟩ (List.mem_filterMap.2 ⟨_, hx, rfl⟩))
  | groups i user => exact answerGroups_without

end Surroundings

namespace Session

def Step.permission? : Step → Option Permission
  | .perform _ o => o.permission?
  | _ => none

def without (p : Permission) (s : Session) : Session :=
  { s with surroundings := s.surroundings.without p }

variable {s s' : Session} {n : Nat} {o : Operation} {r : o.Result} {x : Step} {xs : List Step}
  {e : Event} {evs : List Event} {st : Store}

theorem ne_of_permission? {t : List (Exchange Need.Answer)} {a a' : Authority}
    (hc : a.Course o t r a') (ho : o.permission? ≠ some p) :
    ∀ y ∈ storeCalls t, y.1.permission ≠ p := by
  rintro y hy rfl
  exact ho (hc.permission y hy)

theorem perform_without (ho : o.permission? ≠ some p) (h : s.perform n o = some (r, s')) :
    (s.without p).perform n o = some (r, s'.without p) := by
  obtain ⟨a, a', hn, ht, ha, hs⟩ := perform_eq_some h
  have hcalls := ne_of_permission? (Authority.course_of_transcript ht) ho
  have hn' : (s.without p).authorities[n]? = some a := hn
  rw [perform_of_answers hn' ht (Surroundings.answers_without hcalls ha)]
  simp only [without, hs]

theorem step_without (hx : x.permission? ≠ some p) (h : s.step x = some (e, s')) :
    (s.without p).step x = some (e, s'.without p) := by
  cases x with
  | perform n o =>
    obtain ⟨hfits, r, hp, rfl⟩ := step_perform_eq_some h
    exact step_perform hfits (perform_without hx hp)
  | give d =>
    cases h
    rfl
  | setGroups i user gs =>
    simp only [step] at h ⊢
    split at h
    · rename_i hi
      cases h
      exact if_pos hi
    · cases h
  | removeUser i user =>
    simp only [step] at h ⊢
    split at h
    · rename_i hi
      cases h
      exact if_pos hi
    · cases h

/-- Steps that do not name a permission answer the same without it, and leave the same but for
it. -/
theorem run_without (hx : ∀ x ∈ xs, x.permission? ≠ some p) (h : s.run xs = some (evs, s')) :
    (s.without p).run xs = some (evs, s'.without p) :=
  runSteps_map (fun x hm _ _ _ he => step_without (hx x hm) he) h

theorem perform_roles? (hs : s.surroundings.source = .memory st) (ho : o.permission? ≠ some p)
    (h : s.perform n o = some (r, s')) :
    ∃ st', s'.surroundings.source = .memory st' ∧ st'.roles? p = st.roles? p := by
  obtain ⟨a, a', -, hc, ha, -⟩ := perform_course h
  obtain ⟨st', hst', hr⟩ := Surroundings.receives_of_answers hs ha
  exact ⟨st', hst', hr.roles?_eq (ne_of_permission? hc ho)⟩

theorem step_roles? (hs : s.surroundings.source = .memory st) (hx : x.permission? ≠ some p)
    (h : s.step x = some (e, s')) :
    ∃ st', s'.surroundings.source = .memory st' ∧ st'.roles? p = st.roles? p := by
  cases x with
  | perform n o =>
    obtain ⟨-, r, hp, rfl⟩ := step_perform_eq_some h
    exact perform_roles? hs hx hp
  | _ =>
    obtain ⟨-, ps, rfl⟩ := step_outside h nofun
    exact ⟨st, hs, rfl⟩

theorem run_roles? (hs : s.surroundings.source = .memory st)
    (hx : ∀ x ∈ xs, x.permission? ≠ some p) (h : s.run xs = some (evs, s')) :
    ∃ st', s'.surroundings.source = .memory st' ∧ st'.roles? p = st.roles? p := by
  refine runSteps_keeps
    (P := fun _ s => ∃ st', s.surroundings.source = .memory st' ∧ st'.roles? p = st.roles? p)
    (fun x hm _ _ _ _ ⟨st₁, hs₁, hr₁⟩ he => ?_) (h := []) ⟨st, hs, rfl⟩ h
  obtain ⟨st₂, hs₂, hr₂⟩ := step_roles? hs₁ (hx x hm) he
  exact ⟨st₂, hs₂, hr₂.trans hr₁⟩

end Session

end AccessControl
