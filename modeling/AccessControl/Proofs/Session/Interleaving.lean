import AccessControl.Proofs.Permission.Shape
import AccessControl.Proofs.Sequence
import AccessControl.Proofs.Session.Run
import AccessControl.Proofs.Session.Surroundings

/-!
# Operations at once

Several authorities work on one store at the same time. An operation that was started has its turns:
at each of them its next question is answered at once, and between two of them others have theirs.
What the store holds is at any time what the answers so far say about grants.
-/

namespace AccessControl

namespace Dialogue

variable {Q : Type} {R : Q → Type} {α σ : Type} {peer : (q : Q) → σ → R q × σ}
  {d d' d'' : Dialogue Q R α} {t : List (Exchange R)} {x : Exchange R} {s s' : σ} {a : α}

def advance (peer : (q : Q) → σ → R q × σ) :
    Dialogue Q R α → σ → Option ((Exchange R × Dialogue Q R α) × σ)
  | done _, _ => none
  | ask q next, s =>
    let (r, s) := peer q s
    some ((⟨q, r⟩, next r), s)
  | note _ d, s => d.advance peer s

def value? : Dialogue Q R α → Option α
  | done a => some a
  | ask _ _ => none
  | note _ d => d.value?

/-- Some exchanges lead a dialogue to another, which is what is left of it. -/
def Leads (d : Dialogue Q R α) (t : List (Exchange R)) (d' : Dialogue Q R α) : Prop :=
  ∀ t' a, d'.Transcript t' a → d.Transcript (t ++ t') a

theorem leads_refl (d : Dialogue Q R α) : d.Leads [] d := fun _ _ h => h

theorem Leads.trans {t' : List (Exchange R)} (h : d.Leads t d') (h' : d'.Leads t' d'') :
    d.Leads (t ++ t') d'' := by
  intro u a hu
  rw [List.append_assoc]
  exact h _ a (h' u a hu)

theorem advance_eq_some (h : d.advance peer s = some ((x, d'), s')) :
    d.Leads [x] d' ∧ peer x.1 s = (x.2, s') := by
  induction d with
  | done a => cases h
  | ask q next ih =>
    cases h
    exact ⟨fun _ _ h => .ask h, rfl⟩
  | note n d ih =>
    obtain ⟨hl, hp⟩ := ih h
    exact ⟨fun t a h => .note (hl t a h), hp⟩

theorem transcript_of_value? (h : d.value? = some a) : d.Transcript [] a := by
  induction d with
  | done b =>
    cases h
    exact .done a
  | ask q next ih => cases h
  | note n d ih => exact .note (ih h)

theorem Leads.transcript (h : d.Leads t d') (hv : d'.value? = some a) : d.Transcript t a := by
  have ht := h [] a (transcript_of_value? hv)
  rwa [List.append_nil] at ht

end Dialogue

open Dialogue (Exchange)

structure Task where
  own : PermissionConfig
  operation : Operation
  rest : Authority.Conversation (operation.Result × Authority)

structure Interleaving where
  surroundings : Surroundings
  tasks : List Task

namespace Interleaving

/-- An operation started by any authority, one turn of an operation, or other providers. -/
inductive Move where
  | start (a : Authority) (o : Operation)
  | turn (i : Nat)
  | provide (ps : List Provider)

inductive Event where
  | started (a : Authority) (o : Operation)
  | asked (i : Nat) (x : Exchange Need.Answer)
  | provided (ps : List Provider)

def step : Move → Interleaving → Option (Event × Interleaving)
  | .start a o, s => some (.started a o, { s with tasks := s.tasks ++ [⟨a.own, o, a.perform o⟩] })
  | .turn i, s =>
    match s.tasks[i]? with
    | none => none
    | some k =>
      match k.rest.advance (Surroundings.answer k.own) s.surroundings with
      | none => none
      | some ((x, rest), surroundings) =>
        some (.asked i x, ⟨surroundings, s.tasks.set i { k with rest }⟩)
  | .provide ps, s =>
    some (.provided ps, { s with surroundings := { s.surroundings with providers := ps } })

def run (ms : List Move) (s : Interleaving) : Option (List Event × Interleaving) :=
  runSteps step ms s

def outcome? (s : Interleaving) (i : Nat) : Option ((o : Operation) × o.Result) :=
  match s.tasks[i]? with
  | none => none
  | some k => k.rest.value?.map fun x => ⟨k.operation, x.1⟩

namespace Event

def Grants (p : Permission) (id : String) : Event → Prop
  | asked _ ⟨.call (.grant q r), .ok _⟩ => q = p ∧ r.id = id
  | _ => False

def Revokes (p : Permission) (id : String) : Event → Prop
  | asked _ ⟨.call (.revoke q r), .ok _⟩ => q = p ∧ r.id = id
  | asked _ ⟨.call (.revokeAll q), .ok _⟩ => q = p
  | _ => False

def exchange? (i : Nat) : Event → Option (Exchange Need.Answer)
  | asked j x => if j = i then some x else none
  | _ => none

end Event

open Event (Grants Revokes)

def Granted (p : Permission) (id : String) (h : List Event) : Prop :=
  Since (Grants p id) (Revokes p id) h

def exchangesOf (i : Nat) (h : List Event) : List (Exchange Need.Answer) :=
  h.filterMap (Event.exchange? i)

variable {s s' : Interleaving} {st : Store} {h h' : List Event} {e : Event} {m : Move} {i : Nat}
  {p : Permission} {id : String}

theorem exchangesOf_asked (i j : Nat) (h : List Event) (x : Exchange Need.Answer) :
    exchangesOf i (h ++ [.asked j x]) = exchangesOf i h ++ if j = i then [x] else [] := by
  rw [exchangesOf, List.filterMap_append, exchangesOf]
  by_cases hj : j = i
  · simp [Event.exchange?, hj]
  · simp [Event.exchange?, hj]

theorem exchangesOf_of_none (he : e.exchange? i = none) :
    exchangesOf i (h ++ [e]) = exchangesOf i h := by
  rw [exchangesOf, List.filterMap_append]
  simp [he, exchangesOf]

theorem holds_apply (i : Nat) (k : StoreCall) :
    (Store.apply k st).2.Holds p id ↔
      Grants p id (.asked i ⟨.call k, (Store.apply k st).1⟩) ∨
        (st.Holds p id ∧ ¬ Revokes p id (.asked i ⟨.call k, (Store.apply k st).1⟩)) := by
  cases k with
  | insert q => simpa [Grants, Revokes] using Store.holds_insert
  | delete q => simpa [Grants, Revokes] using Store.holds_delete
  | grant q r =>
    rw [Store.holds_grant]
    cases hq : st.roles? q <;> simp [Store.apply, Store.Contains, hq, Grants, Revokes, or_comm]
  | revokeAll q => simpa [Store.apply, Grants, Revokes] using Store.holds_revokeAll
  | revoke q r =>
    rw [Store.holds_revoke]
    cases hq : st.roles? q <;> simp [Store.apply, hq, Grants, Revokes]
  | hasAny roles q =>
    cases hq : st.roles? q <;> simp [Store.apply, hq, Grants, Revokes]
  | grantedRoles q =>
    cases hq : st.roles? q <;> simp [Store.apply, hq, Grants, Revokes]

/-- A store without faults that holds what the events so far say, with every operation led by its
own answers to what is left of it. -/
structure Sound (h : List Event) (st : Store) (s : Interleaving) : Prop where
  undisturbed : s.surroundings.Undisturbed st
  wellFormed : st.WellFormed
  holds : ∀ p id, st.Holds p id ↔ Granted p id h
  led : ∀ i k, s.tasks[i]? = some k →
    ∃ a : Authority, (a.perform k.operation).Leads (exchangesOf i h) k.rest
  unstarted : ∀ i, s.tasks.length ≤ i → exchangesOf i h = []

theorem Sound.holds_append (hs : Sound h st s) (he : ∀ p id, ¬ e.Grants p id ∧ ¬ e.Revokes p id)
    (p : Permission) (id : String) : st.Holds p id ↔ Granted p id (h ++ [e]) := by
  obtain ⟨hg, hr⟩ := he p id
  rw [hs.holds, Granted, Granted, since_append_singleton]
  simp [hg, hr]

theorem sound_start (hs : s.surroundings.Undisturbed .empty) (ht : s.tasks = []) :
    Sound [] .empty s where
  undisturbed := hs
  wellFormed := Store.wellFormed_empty
  holds p id := iff_of_false (Store.not_holds_empty p id) not_since_nil
  led i k hk := by
    rw [ht] at hk
    cases hk
  unstarted _ _ := rfl

theorem Sound.answer {own : PermissionConfig} {x : Exchange Need.Answer} {u : Surroundings}
    (hs : Sound h st s) (hx : Surroundings.answer own x.1 s.surroundings = (x.2, u)) (i : Nat) :
    ∃ st', u.Undisturbed st' ∧ st'.WellFormed ∧
      ∀ p id, st'.Holds p id ↔ Granted p id (h ++ [.asked i x]) := by
  obtain ⟨q, r⟩ := x
  cases q with
  | store c =>
    obtain ⟨-, hu⟩ := hs.undisturbed.answerOpen c
    have hx : s.surroundings.answerOpen c = (r, u) := hx
    rw [hx] at hu
    exact ⟨st, hu, hs.wellFormed, hs.holds_append fun _ _ => ⟨not_false, not_false⟩⟩
  | call k =>
    have hx : s.surroundings.answerCall own k = (r, u) := hx
    obtain ⟨hr, hu⟩ := hs.undisturbed.answerCall own k
    rw [hx] at hr hu
    refine ⟨_, hu, hs.wellFormed.apply k, fun p id => ?_⟩
    have hr : r = (Store.apply k st).1 := hr
    rw [hr, Granted, since_append_singleton, holds_apply i k, hs.holds p id, Granted]
  | groups provider user =>
    have hu := hs.undisturbed.answerGroups provider user
    have hx : s.surroundings.answerGroups provider user = (r, u) := hx
    rw [hx] at hu
    exact ⟨st, hu, hs.wellFormed, hs.holds_append fun _ _ => ⟨not_false, not_false⟩⟩

theorem step_turn_eq_some (h : s.step (.turn i) = some (e, s')) :
    ∃ k x rest, s.tasks[i]? = some k ∧ e = .asked i x ∧ k.rest.Leads [x] rest ∧
      Surroundings.answer k.own x.1 s.surroundings = (x.2, s'.surroundings) ∧
      s'.tasks = s.tasks.set i { k with rest } := by
  simp only [step] at h
  split at h
  · cases h
  · rename_i k hk
    split at h
    · cases h
    · rename_i x rest surroundings ha
      cases h
      obtain ⟨hl, hx⟩ := Dialogue.advance_eq_some ha
      exact ⟨k, x, rest, hk, rfl, hl, hx, rfl⟩

theorem Sound.start (hs : Sound h st s) (a : Authority) (o : Operation) :
    Sound (h ++ [.started a o]) st { s with tasks := s.tasks ++ [⟨a.own, o, a.perform o⟩] } where
  undisturbed := hs.undisturbed
  wellFormed := hs.wellFormed
  holds := hs.holds_append fun _ _ => ⟨not_false, not_false⟩
  led i k hk := by
    rw [exchangesOf_of_none rfl]
    rw [List.getElem?_append] at hk
    split at hk
    · exact hs.led i k hk
    · rename_i hi
      rw [hs.unstarted i (Nat.le_of_not_lt hi)]
      rw [List.getElem?_singleton] at hk
      split at hk
      · cases hk
        exact ⟨a, Dialogue.leads_refl _⟩
      · cases hk
  unstarted i hi := by
    rw [exchangesOf_of_none rfl]
    rw [List.length_append] at hi
    exact hs.unstarted i (by omega)

theorem Sound.turn (hs : Sound h st s) (ht : s.step (.turn i) = some (e, s')) :
    ∃ st', Sound (h ++ [e]) st' s' := by
  obtain ⟨k, x, rest, hk, rfl, hl, hx, htasks⟩ := step_turn_eq_some ht
  obtain ⟨st', hu, hw, hh⟩ := hs.answer hx i
  -- one operation has come an exchange further, the others are where they were
  refine ⟨st', hu, hw, hh, ?_, ?_⟩
  · intro j k' hk'
    rw [htasks, List.getElem?_set] at hk'
    rw [exchangesOf_asked]
    split at hk'
    · rename_i hij
      subst hij
      split at hk'
      · cases hk'
        obtain ⟨a, ha⟩ := hs.led i k hk
        rw [if_pos rfl]
        exact ⟨a, ha.trans hl⟩
      · cases hk'
    · rename_i hij
      rw [if_neg hij, List.append_nil]
      exact hs.led j k' hk'
  · intro j hj
    rw [htasks, List.length_set] at hj
    have hij : i ≠ j := by
      intro hij
      rw [List.getElem?_eq_none (hij ▸ hj)] at hk
      cases hk
    rw [exchangesOf_asked, if_neg hij, List.append_nil]
    exact hs.unstarted j hj

theorem Sound.step (hs : Sound h st s) (hm : s.step m = some (e, s')) :
    ∃ st', Sound (h ++ [e]) st' s' := by
  cases m with
  | start a o =>
    cases hm
    exact ⟨st, hs.start a o⟩
  | turn i => exact hs.turn hm
  | provide ps =>
    cases hm
    refine ⟨st, hs.undisturbed.withProviders ps, hs.wellFormed,
      hs.holds_append fun _ _ => ⟨not_false, not_false⟩, ?_, ?_⟩
    · intro i k hk
      rw [exchangesOf_of_none rfl]
      exact hs.led i k hk
    · intro i hi
      rw [exchangesOf_of_none rfl]
      exact hs.unstarted i hi

theorem sound_run {ms : List Move} (hs : s.surroundings.Undisturbed .empty) (ht : s.tasks = [])
    (hr : s.run ms = some (h, s')) : ∃ st, Sound h st s' :=
  runSteps_keeps (P := fun h s => ∃ st, Sound h st s) (fun _ _ _ _ _ _ ⟨_, hs⟩ hm => hs.step hm)
    ⟨_, sound_start hs ht⟩ hr

end Interleaving

end AccessControl
