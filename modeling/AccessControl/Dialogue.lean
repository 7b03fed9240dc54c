/-!
# Dialogues

A dialogue asks its questions one at a time, each chosen by the answers so far, may leave notes for
a log between them, and ends in a value. It is a value itself: who answers is decided by `run`, and
`refine` puts a dialogue over other questions in the place of each question.
-/

namespace AccessControl

inductive Level where
  | debug
  | info
  | warn
  | error
deriving DecidableEq, Repr

def Level.text : Level → String
  | .debug => "DEBUG"
  | .info => "INFO"
  | .warn => "WARN"
  | .error => "ERROR"

structure Note where
  level : Level
  message : String
deriving DecidableEq, Repr

inductive Dialogue (Q : Type) (R : Q → Type) (α : Type) where
  | done (a : α)
  | ask (q : Q) (next : R q → Dialogue Q R α)
  | note (n : Note) (next : Dialogue Q R α)

namespace Dialogue

variable {Q : Type} {R : Q → Type} {Q' : Type} {R' : Q' → Type} {α β γ σ : Type}

def bind : Dialogue Q R α → (α → Dialogue Q R β) → Dialogue Q R β
  | done a, f => f a
  | ask q next, f => ask q fun r => (next r).bind f
  | note n next, f => note n (next.bind f)

def map (f : α → β) : Dialogue Q R α → Dialogue Q R β
  | done a => done (f a)
  | ask q next => ask q fun r => (next r).map f
  | note n next => note n (next.map f)

def question (q : Q) : Dialogue Q R (R q) := ask q done

def remark (level : Level) (message : String) : Dialogue Q R Unit := note ⟨level, message⟩ (done ())

theorem bind_assoc (d : Dialogue Q R α) (f : α → Dialogue Q R β) (g : β → Dialogue Q R γ) :
    (d.bind f).bind g = d.bind fun a => (f a).bind g := by
  induction d with
  | done a => rfl
  | ask q next ih => simp [bind, ih]
  | note n next ih => simp [bind, ih]

def run (peer : (q : Q) → σ → R q × σ) : Dialogue Q R α → σ → α × σ
  | done a, s => (a, s)
  | ask q next, s =>
    let (r, s) := peer q s
    (next r).run peer s
  | note _ next, s => next.run peer s

theorem run_bind (peer : (q : Q) → σ → R q × σ) (d : Dialogue Q R α) (f : α → Dialogue Q R β)
    (s : σ) : (d.bind f).run peer s = (f (d.run peer s).1).run peer (d.run peer s).2 := by
  induction d generalizing s with
  | done a => rfl
  | ask q next ih => simp [bind, run, ih]
  | note n next ih => simp [bind, run, ih]

theorem run_map (peer : (q : Q) → σ → R q × σ) (f : α → β) (d : Dialogue Q R α) (s : σ) :
    (d.map f).run peer s = (f (d.run peer s).1, (d.run peer s).2) := by
  induction d generalizing s with
  | done a => rfl
  | ask q next ih => simp [map, run, ih]
  | note n next ih => simp [map, run, ih]

theorem run_keeps (peer : (q : Q) → σ → R q × σ) {P : σ → Prop}
    (h : ∀ q s, P s → P (peer q s).2) (d : Dialogue Q R α) {s : σ} (hs : P s) :
    P (d.run peer s).2 := by
  induction d generalizing s with
  | done a => exact hs
  | ask q next ih => exact ih _ (h q s hs)
  | note n next ih => exact ih hs

def notes (peer : (q : Q) → σ → R q × σ) : Dialogue Q R α → σ → List Note
  | done _, _ => []
  | ask q next, s =>
    let (r, s) := peer q s
    (next r).notes peer s
  | note n next, s => n :: next.notes peer s

abbrev Exchange (R : Q → Type) : Type := (q : Q) × R q

def exchanges (peer : (q : Q) → σ → R q × σ) : Dialogue Q R α → σ → List (Exchange R)
  | done _, _ => []
  | ask q next, s =>
    let (r, s) := peer q s
    ⟨q, r⟩ :: (next r).exchanges peer s
  | note _ next, s => next.exchanges peer s

/-- Each question answered by a dialogue over other questions. -/
def refine (answer : (q : Q) → Dialogue Q' R' (R q)) : Dialogue Q R α → Dialogue Q' R' α
  | done a => done a
  | ask q next => (answer q).bind fun r => (next r).refine answer
  | note n next => note n (next.refine answer)

theorem refine_bind (answer : (q : Q) → Dialogue Q' R' (R q)) (d : Dialogue Q R α)
    (f : α → Dialogue Q R β) :
    (d.bind f).refine answer = (d.refine answer).bind fun a => (f a).refine answer := by
  induction d with
  | done a => rfl
  | ask q next ih => simp [bind, refine, ih, bind_assoc]
  | note n next ih => simp [bind, refine, ih]

/-- A run through a refinement is a run with the peer that the refinement makes of its own peer. -/
theorem run_refine (answer : (q : Q) → Dialogue Q' R' (R q)) (peer : (q : Q') → σ → R' q × σ)
    (d : Dialogue Q R α) (s : σ) :
    (d.refine answer).run peer s = d.run (fun q s => (answer q).run peer s) s := by
  induction d generalizing s with
  | done a => rfl
  | ask q next ih => simp [refine, run, run_bind, ih]
  | note n next ih => simp [refine, run, ih]

end Dialogue

end AccessControl
