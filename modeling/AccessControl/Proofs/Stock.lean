import AccessControl.Proofs.Transcript

/-!
# Peers with stocks

A peer may have stocks that its answers are drawn from. What it draws does not depend on what is
left behind, except that an empty stock stays empty.
-/

namespace AccessControl

open Dialogue (Exchange Answers)

/-- What the states of a peer have in stock, and when a state is like another one but for having
other stocks. -/
structure Stocks (σ ι ρ : Type) where
  stock : σ → ι → List ρ
  Like : (ι → List ρ) → σ → σ → Prop

namespace Stocks

variable {σ ι ρ : Type} {M : Stocks σ ι ρ} {go go' : σ → σ → Prop} {s m s' u : σ}
  {drawn drawn' left : ι → List ρ}

/-- On its way from one state to another a peer draws from the stocks, and like states that have the
same in front of other stocks go the same way, if these are empty where nothing is left. -/
structure Draws (M : Stocks σ ι ρ) (go : σ → σ → Prop) (s s' : σ) (drawn : ι → List ρ) : Prop where
  stock : ∀ i, M.stock s i = drawn i ++ M.stock s' i
  alike : ∀ u left, (∀ i, M.stock s' i = [] → left i = []) →
    M.Like (fun i => drawn i ++ left i) s u → ∃ u', go u u' ∧ M.Like left s' u'

theorem draws_refl (M : Stocks σ ι ρ) (s : σ) : M.Draws Eq s s fun _ => [] where
  stock _ := rfl
  alike u _ _ hu := ⟨u, rfl, hu⟩

theorem Draws.imp (h : M.Draws go s s' drawn) (hgo : ∀ u u', go u u' → go' u u') :
    M.Draws go' s s' drawn where
  stock := h.stock
  alike u left hl hu := by
    obtain ⟨u', hg, hu'⟩ := h.alike u left hl hu
    exact ⟨u', hgo u u' hg, hu'⟩

theorem Draws.trans (h : M.Draws go s m drawn) (h' : M.Draws go' m s' drawn') :
    M.Draws (fun u u' => ∃ v, go u v ∧ go' v u') s s' fun i => drawn i ++ drawn' i where
  stock i := by rw [h.stock, h'.stock, List.append_assoc]
  alike u left hl hu := by
    have hempty (i : ι) (hi : M.stock m i = []) : drawn' i ++ left i = [] := by
      rw [h'.stock, List.append_eq_nil_iff] at hi
      rw [hi.1, hl i hi.2, List.append_nil]
    -- what is drawn on the second way is what the first one leaves in front
    simp only [List.append_assoc] at hu
    obtain ⟨v, hg, hv⟩ := h.alike u _ hempty hu
    obtain ⟨u', hg', hu'⟩ := h'.alike v left hl hv
    exact ⟨u', ⟨v, hg, hg'⟩, hu'⟩

theorem Draws.eq_nil {i : ι} (h : M.Draws go s s' drawn) (hi : M.stock s i = []) :
    drawn i = [] ∧ M.stock s' i = [] := by
  rw [h.stock] at hi
  exact List.append_eq_nil_iff.1 hi

theorem Draws.drawn_eq (h : M.Draws go s s' drawn) (i : ι) :
    drawn i = (M.stock s i).take ((M.stock s i).length - (M.stock s' i).length) := by
  rw [h.stock, List.length_append, Nat.add_sub_cancel, List.take_left]

theorem draws_answers {Q : Type} {R : Q → Type} {peer : (q : Q) → σ → R q × σ}
    {t : List (Exchange R)}
    (hd : ∀ x ∈ t, ∀ s, (peer x.1 s).1 = x.2 →
      ∃ drawn, M.Draws (fun u u' => peer x.1 u = (x.2, u')) s (peer x.1 s).2 drawn)
    (ha : Answers peer t s s') : ∃ drawn, M.Draws (Answers peer t) s s' drawn := by
  induction t generalizing s with
  | nil =>
    cases ha
    exact ⟨_, draws_refl M _⟩
  | cons x t ih =>
    obtain ⟨hx, ha⟩ := ha
    obtain ⟨drawn, h⟩ := hd x List.mem_cons_self s hx
    obtain ⟨drawn', h'⟩ := ih (fun y hy => hd y (List.mem_cons_of_mem x hy)) ha
    refine ⟨_, (h.trans h').imp ?_⟩
    rintro u u' ⟨v, hv, hu'⟩
    rw [Answers, hv]
    exact ⟨rfl, hu'⟩

end Stocks

end AccessControl
