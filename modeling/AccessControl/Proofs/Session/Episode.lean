import AccessControl.Proofs.Authority.Course
import AccessControl.Proofs.Session.Run

/-!
# Episodes

An episode is a step of a session together with what was asked in it and answered. The operations of
a session take the courses of their authority, and a session that gives the same answers takes the
same course.
-/

namespace AccessControl.Session

open Dialogue (Exchange Answers Transcript)

structure Episode where
  event : Event
  asked : List (Exchange Need.Answer)

def askedFor (n : Nat) (o : Operation) (s : Session) : List (Exchange Need.Answer) :=
  match s.authorities[n]? with
  | none => []
  | some a => (a.perform o).exchanges (Surroundings.answer a.own) s.surroundings

def asked : Step → Session → List (Exchange Need.Answer)
  | .perform n o, s => s.askedFor n o
  | _, _ => []

def episode (x : Step) (s : Session) : Option (Episode × Session) :=
  (s.step x).map fun y => (⟨y.1, asked x s⟩, y.2)

def episodes (xs : List Step) (s : Session) : Option (List Episode × Session) :=
  runSteps episode xs s

variable {s s' : Session} {n : Nat} {o : Operation} {r : o.Result} {x : Step} {e : Episode}

theorem episode_eq_some (h : s.episode x = some (e, s')) :
    s.step x = some (e.event, s') ∧ e.asked = asked x s := by
  obtain ⟨y, hy, he⟩ := Option.map_eq_some_iff.1 h
  cases he
  exact ⟨hy, rfl⟩

theorem step_perform_eq_some {ev : Event} (h : s.step (.perform n o) = some (ev, s')) :
    o.fits s.surroundings.providers.length = true ∧
      ∃ r, s.perform n o = some (r, s') ∧ ev = ⟨.perform n o, r⟩ := by
  simp only [step] at h
  split at h
  · rename_i hfits
    refine ⟨hfits, ?_⟩
    split at h
    · cases h
    · rename_i r s₁ hp
      cases h
      exact ⟨r, hp, rfl⟩
  · cases h

theorem step_perform (hfits : o.fits s.surroundings.providers.length = true)
    (h : s.perform n o = some (r, s')) :
    s.step (.perform n o) = some (⟨.perform n o, r⟩, s') := by
  rw [step, if_pos hfits, h]

def withProviders (ps : List Provider) (s : Session) : Session :=
  { s with surroundings := { s.surroundings with providers := ps } }

theorem step_outside {ev : Event} (h : s.step x = some (ev, s')) (hx : ∀ n o, x ≠ .perform n o) :
    ev.step = x ∧ ∃ ps, s' = s.withProviders ps := by
  cases x with
  | perform n o => exact absurd rfl (hx n o)
  | give d =>
    cases h
    exact ⟨rfl, _, rfl⟩
  | _ =>
    simp only [step] at h
    split at h
    · cases h
      exact ⟨rfl, _, rfl⟩
    · cases h

theorem exists_perform {a : Authority} (hn : s.authorities[n]? = some a) (o : Operation) :
    ∃ r s', s.perform n o = some (r, s') := by
  simp only [perform, converse, hn]
  exact ⟨_, _, rfl⟩

theorem perform_eq_some (h : s.perform n o = some (r, s')) :
    ∃ a a', s.authorities[n]? = some a ∧ (a.perform o).Transcript (s.askedFor n o) (r, a') ∧
      Answers (Surroundings.answer a.own) (s.askedFor n o) s.surroundings s'.surroundings ∧
      s'.authorities = s.authorities.set n a' := by
  simp only [perform, converse] at h
  split at h
  · cases h
  · rename_i a hn
    cases h
    simp only [askedFor, hn]
    exact ⟨a, _, rfl, Dialogue.transcript_run .., Dialogue.answers_run .., rfl⟩

theorem perform_course (h : s.perform n o = some (r, s')) :
    ∃ a a', s.authorities[n]? = some a ∧ a.Course o (s.askedFor n o) r a' ∧
      Answers (Surroundings.answer a.own) (s.askedFor n o) s.surroundings s'.surroundings ∧
      s'.authorities = s.authorities.set n a' := by
  obtain ⟨a, a', hn, ht, ha, hs⟩ := perform_eq_some h
  exact ⟨a, a', hn, Authority.course_of_transcript ht, ha, hs⟩

theorem perform_of_answers {a a' : Authority} {t : List (Exchange Need.Answer)} {u : Surroundings}
    (hn : s.authorities[n]? = some a) (ht : (a.perform o).Transcript t (r, a'))
    (ha : Answers (Surroundings.answer a.own) t s.surroundings u) :
    s.perform n o = some (r, ⟨s.authorities.set n a', u⟩) := by
  simp only [perform, converse, hn, (ht.run_eq ha).1]

end AccessControl.Session
