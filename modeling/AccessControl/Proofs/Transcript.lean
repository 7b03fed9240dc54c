import AccessControl.Dialogue

/-!
# Transcripts

A transcript of a dialogue is a list of exchanges that lead it to a value, whoever answers. A run
leaves one, and a peer that gives the answers of a transcript is led the same way.
-/

namespace AccessControl.Dialogue

variable {Q : Type} {R : Q → Type} {α β σ : Type} {t : List (Exchange R)} {a : α} {b : β}

inductive Transcript : Dialogue Q R α → List (Exchange R) → α → Prop
  | done (a : α) : Transcript (.done a) [] a
  | ask {q : Q} {next : R q → Dialogue Q R α} {r : R q} {t : List (Exchange R)} {a : α}
      (h : Transcript (next r) t a) : Transcript (.ask q next) (⟨q, r⟩ :: t) a
  | note {n : Note} {d : Dialogue Q R α} {t : List (Exchange R)} {a : α}
      (h : Transcript d t a) : Transcript (.note n d) t a

/-- Going through some exchanges, a peer gives their answers and comes from one state to another. -/
def Answers (peer : (q : Q) → σ → R q × σ) : List (Exchange R) → σ → σ → Prop
  | [], s, s' => s = s'
  | x :: t, s, s' => (peer x.1 s).1 = x.2 ∧ Answers peer t (peer x.1 s).2 s'

variable {peer : (q : Q) → σ → R q × σ} {s s' : σ}

theorem answers_append {t₁ t₂ : List (Exchange R)} :
    Answers peer (t₁ ++ t₂) s s' ↔ ∃ m, Answers peer t₁ s m ∧ Answers peer t₂ m s' := by
  induction t₁ generalizing s with
  | nil => simp [Answers]
  | cons x t ih => simp [Answers, ih, and_assoc]

theorem answers_map {τ : Type} {peer' : (q : Q) → τ → R q × τ} {f : σ → τ}
    (hf : ∀ x ∈ t, ∀ s, peer' x.1 (f s) = ((peer x.1 s).1, f (peer x.1 s).2))
    (h : Answers peer t s s') : Answers peer' t (f s) (f s') := by
  induction t generalizing s with
  | nil => exact congrArg f h
  | cons x t ih =>
    obtain ⟨hr, h⟩ := h
    have hx := hf x List.mem_cons_self s
    have ht := ih (fun y hy => hf y (List.mem_cons_of_mem x hy)) h
    rw [Answers, hx]
    exact ⟨hr, ht⟩

theorem answers_keeps {P : σ → Prop} (hp : ∀ q s, P s → P (peer q s).2) (h : Answers peer t s s')
    (hs : P s) : P s' := by
  induction t generalizing s with
  | nil => exact h ▸ hs
  | cons x t ih => exact ih h.2 (hp x.1 s hs)

/-- A peer whose state is a part of another one's runs as that one does. -/
theorem run_part {τ : Type} (peer : (q : Q) → σ → R q × σ) (peer' : (q : Q) → τ → R q × τ)
    {f : σ → τ} (hf : ∀ q s, peer' q (f s) = ((peer q s).1, f (peer q s).2))
    (d : Dialogue Q R α) (s : σ) :
    d.run peer' (f s) = ((d.run peer s).1, f (d.run peer s).2) := by
  induction d generalizing s with
  | done a => rfl
  | ask q next ih => simp only [run, hf, ih]
  | note n next ih => exact ih s

theorem transcript_run (peer : (q : Q) → σ → R q × σ) (d : Dialogue Q R α) (s : σ) :
    d.Transcript (d.exchanges peer s) (d.run peer s).1 := by
  induction d generalizing s with
  | done a => exact .done a
  | ask q next ih => exact .ask (ih _ _)
  | note n next ih => exact .note (ih s)

theorem answers_run (peer : (q : Q) → σ → R q × σ) (d : Dialogue Q R α) (s : σ) :
    Answers peer (d.exchanges peer s) s (d.run peer s).2 := by
  induction d generalizing s with
  | done a => rfl
  | ask q next ih => exact ⟨rfl, ih _ _⟩
  | note n next ih => exact ih s

theorem Transcript.run_eq {d : Dialogue Q R α} (h : d.Transcript t a) (ha : Answers peer t s s') :
    d.run peer s = (a, s') ∧ d.exchanges peer s = t := by
  induction h generalizing s with
  | done a =>
    cases ha
    exact ⟨rfl, rfl⟩
  | ask h ih =>
    obtain ⟨hr, ha⟩ := ha
    obtain ⟨hrun, ht⟩ := ih ha
    simp only [run, exchanges, hr, hrun, ht, and_self]
  | note h ih => exact ih ha

theorem exchanges_bind (peer : (q : Q) → σ → R q × σ) (d : Dialogue Q R α)
    (f : α → Dialogue Q R β) (s : σ) : (d.bind f).exchanges peer s =
      d.exchanges peer s ++ (f (d.run peer s).1).exchanges peer (d.run peer s).2 := by
  induction d generalizing s with
  | done a => rfl
  | ask q next ih => simp [bind, exchanges, run, ih]
  | note n next ih => simp [bind, exchanges, run, ih]

theorem Transcript.of_bind {d : Dialogue Q R α} {f : α → Dialogue Q R β}
    (h : (d.bind f).Transcript t b) :
    ∃ t₁ a t₂, t = t₁ ++ t₂ ∧ d.Transcript t₁ a ∧ (f a).Transcript t₂ b := by
  induction d generalizing t with
  | done a => exact ⟨[], a, t, rfl, .done a, h⟩
  | ask q next ih =>
    cases h with
    | ask h =>
      obtain ⟨t₁, a, t₂, rfl, h₁, h₂⟩ := ih _ h
      exact ⟨_, a, t₂, rfl, .ask h₁, h₂⟩
  | note n next ih =>
    cases h with
    | note h =>
      obtain ⟨t₁, a, t₂, rfl, h₁, h₂⟩ := ih h
      exact ⟨t₁, a, t₂, rfl, .note h₁, h₂⟩

theorem Transcript.of_map {d : Dialogue Q R α} {f : α → β} (h : (d.map f).Transcript t b) :
    ∃ a, b = f a ∧ d.Transcript t a := by
  induction d generalizing t with
  | done a =>
    cases h
    exact ⟨a, rfl, .done a⟩
  | ask q next ih =>
    cases h with
    | ask h =>
      obtain ⟨a, hb, ha⟩ := ih _ h
      exact ⟨a, hb, .ask ha⟩
  | note n next ih =>
    cases h with
    | note h =>
      obtain ⟨a, hb, ha⟩ := ih h
      exact ⟨a, hb, .note ha⟩

end AccessControl.Dialogue
