import AccessControl.Authority.Session

/-!
# Runs of a session

A run takes steps in order: operations of the authorities, directories that are new, and changes of
who belongs to which groups. Its history keeps every step with what it answered. A step that names
an authority or a provider that is not there cannot be taken.
-/

namespace AccessControl

section

variable {X E σ τ : Type}

def runSteps (step : X → σ → Option (E × σ)) : List X → σ → Option (List E × σ)
  | [], s => some ([], s)
  | x :: xs, s =>
    match step x s with
    | none => none
    | some (e, s) =>
      match runSteps step xs s with
      | none => none
      | some (h, s) => some (e :: h, s)

theorem runSteps_cons_eq_some {step : X → σ → Option (E × σ)} {x : X} {xs : List X} {s s' : σ}
    {h : List E} (hr : runSteps step (x :: xs) s = some (h, s')) :
    ∃ e s₁ h₁, step x s = some (e, s₁) ∧ runSteps step xs s₁ = some (h₁, s') ∧ h = e :: h₁ := by
  simp only [runSteps] at hr
  split at hr
  · cases hr
  · rename_i e s₁ he
    split at hr
    · cases hr
    · rename_i h₁ s₂ hh
      cases hr
      exact ⟨e, s₁, h₁, he, hh, rfl⟩

theorem runSteps_append_eq_some {step : X → σ → Option (E × σ)} {xs : List X} {s s' : σ}
    {h h' : List E} (hr : runSteps step xs s = some (h ++ h', s')) :
    ∃ before after m, xs = before ++ after ∧ runSteps step before s = some (h, m) ∧
      runSteps step after m = some (h', s') := by
  induction h generalizing xs s with
  | nil => exact ⟨[], xs, s, rfl, rfl, hr⟩
  | cons e h ih =>
    cases xs with
    | nil => cases hr
    | cons x xs =>
      obtain ⟨e', s₁, h₁, he, hh, heq⟩ := runSteps_cons_eq_some hr
      obtain ⟨rfl, rfl⟩ := List.cons.inj heq
      obtain ⟨before, after, m, rfl, hb, ha⟩ := ih hh
      refine ⟨x :: before, after, m, rfl, ?_, ha⟩
      simp only [runSteps, he, hb]

theorem runSteps_keeps {step : X → σ → Option (E × σ)} {P : List E → σ → Prop} {xs : List X}
    (hstep : ∀ x ∈ xs, ∀ {h s e s'}, P h s → step x s = some (e, s') → P (h ++ [e]) s')
    {h h' : List E} {s s' : σ} (hp : P h s) (hr : runSteps step xs s = some (h', s')) :
    P (h ++ h') s' := by
  induction xs generalizing h h' s with
  | nil =>
    cases hr
    simpa using hp
  | cons x xs ih =>
    obtain ⟨e, s₁, h₁, he, hh, rfl⟩ := runSteps_cons_eq_some hr
    have hp₁ := hstep x List.mem_cons_self hp he
    have hk := ih (fun y hy => hstep y (List.mem_cons_of_mem x hy)) hp₁ hh
    simpa using hk

theorem runSteps_map {step : X → σ → Option (E × σ)} {f : σ → τ}
    {step' : X → τ → Option (E × τ)} {xs : List X}
    (hstep : ∀ x ∈ xs, ∀ {s e s'}, step x s = some (e, s') → step' x (f s) = some (e, f s'))
    {h : List E} {s s' : σ} (hr : runSteps step xs s = some (h, s')) :
    runSteps step' xs (f s) = some (h, f s') := by
  induction xs generalizing h s with
  | nil =>
    cases hr
    rfl
  | cons x xs ih =>
    obtain ⟨e, s₁, h₁, he, hh, rfl⟩ := runSteps_cons_eq_some hr
    have he' := hstep x List.mem_cons_self he
    have hh' := ih (fun y hy => hstep y (List.mem_cons_of_mem x hy)) hh
    simp only [runSteps, he', hh']

/-- Two machines agree on a step: neither can take it, or both leave the same record and come to
related states. -/
def Agree (R : σ → τ → Prop) : Option (E × σ) → Option (E × τ) → Prop :=
  Option.Rel fun a b => a.1 = b.1 ∧ R a.2 b.2

theorem runSteps_agree {f : X → σ → Option (E × σ)} {g : X → τ → Option (E × τ)}
    {R : σ → τ → Prop} (hstep : ∀ x {s t}, R s t → Agree R (f x s) (g x t)) (xs : List X)
    {s : σ} {t : τ} (hst : R s t) : Agree R (runSteps f xs s) (runSteps g xs t) := by
  induction xs generalizing s t with
  | nil => exact .some ⟨rfl, hst⟩
  | cons x xs ih =>
    have hx := hstep x hst
    simp only [runSteps]
    generalize f x s = a at hx ⊢
    generalize g x t = b at hx ⊢
    cases hx with
    | none => exact .none
    | @some a b hab =>
      have hi := ih hab.2
      dsimp only
      generalize runSteps f xs a.2 = o at hi ⊢
      generalize runSteps g xs b.2 = o' at hi ⊢
      cases hi with
      | none => exact .none
      | @some c d hcd => exact .some ⟨by rw [hab.1, hcd.1], hcd.2⟩

theorem Agree.exists_right {R : σ → τ → Prop} {a : Option (E × σ)} {b : Option (E × τ)} {e : E}
    {s : σ} (hab : Agree R a b) (ha : a = some (e, s)) : ∃ t, b = some (e, t) ∧ R s t := by
  subst ha
  cases hab with
  | @some _ d h =>
    obtain ⟨e', t⟩ := d
    obtain ⟨he, hr⟩ := h
    dsimp only at he hr
    exact ⟨t, by rw [he], hr⟩

end

def Operation.fits (providers : Nat) : Operation → Bool
  | .bind i => decide (i < providers)
  | _ => true

namespace Session

inductive Step where
  | perform (n : Nat) (o : Operation)
  | give (d : Directory)
  | setGroups (i : ProviderId) (user : String) (groups : List Group)
  | removeUser (i : ProviderId) (user : String)
deriving DecidableEq, Repr

abbrev Step.Result : Step → Type
  | perform _ o => o.Result
  | give _ => ProviderId
  | _ => Unit

structure Event where
  step : Step
  result : step.Result

def step : Step → Session → Option (Event × Session)
  | .perform n o, s =>
    if o.fits s.surroundings.providers.length then
      match s.perform n o with
      | none => none
      | some (r, s) => some (⟨.perform n o, r⟩, s)
    else none
  | .give d, s =>
    let (i, s) := s.give (.directory d)
    some (⟨.give d, i⟩, s)
  | .setGroups i user gs, s =>
    if i < s.surroundings.providers.length then
      some (⟨.setGroups i user gs, ()⟩, s.changeDirectoryAt i (·.set user gs))
    else none
  | .removeUser i user, s =>
    if i < s.surroundings.providers.length then
      some (⟨.removeUser i user, ()⟩, s.changeDirectoryAt i (·.remove user))
    else none

def run (xs : List Step) (s : Session) : Option (List Event × Session) := runSteps step xs s

end Session

end AccessControl
