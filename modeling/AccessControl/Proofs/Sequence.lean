/-!
# What was said last

Facts about a sequence that only its last word on something decides.
-/

namespace AccessControl

variable {E α : Type} {made undone : E → Prop} {h : List E} {e : E}

/-- Something was made, and nothing after it has undone it. -/
def Since (made undone : E → Prop) (h : List E) : Prop :=
  ∃ before e after, h = before ++ e :: after ∧ made e ∧ ∀ x ∈ after, ¬ undone x

theorem not_since_nil : ¬ Since made undone [] := by
  rintro ⟨before, e, after, h, -⟩
  exact absurd h.symm (by simp)

theorem since_append_singleton :
    Since made undone (h ++ [e]) ↔ made e ∨ (Since made undone h ∧ ¬ undone e) := by
  constructor
  · rintro ⟨before, m, after, hh, hm, hu⟩
    rcases List.eq_nil_or_concat after with rfl | ⟨after, x, rfl⟩
    · obtain ⟨-, rfl⟩ := List.append_inj' hh rfl |>.imp_right List.singleton_inj.1
      exact .inl hm
    · rw [List.concat_eq_append] at hh hu
      rw [← List.cons_append, ← List.append_assoc] at hh
      obtain ⟨rfl, hx⟩ := List.append_inj' hh rfl
      obtain rfl := List.singleton_inj.1 hx
      refine .inr ⟨⟨before, m, after, rfl, hm, fun y hy => hu y ?_⟩, hu e ?_⟩
      · exact List.mem_append_left _ hy
      · exact List.mem_append_right _ (List.mem_singleton_self e)
  · rintro (hm | ⟨⟨before, m, after, rfl, hm, hu⟩, he⟩)
    · exact ⟨h, e, [], rfl, hm, fun x hx => absurd hx List.not_mem_nil⟩
    · refine ⟨before, m, after ++ [e], by simp, hm, fun x hx => ?_⟩
      rcases List.mem_append.1 hx with hx | hx
      · exact hu x hx
      · rw [List.mem_singleton.1 hx]
        exact he

theorem since_iff_exists (hu : ∀ e, ¬ undone e) : Since made undone h ↔ ∃ e ∈ h, made e := by
  constructor
  · rintro ⟨before, e, after, rfl, hm, -⟩
    exact ⟨e, List.mem_append_right _ List.mem_cons_self, hm⟩
  · rintro ⟨e, he, hm⟩
    obtain ⟨before, after, rfl⟩ := List.append_of_mem he
    exact ⟨before, e, after, rfl, hm, fun x _ => hu x⟩

/-- Something holds of what has followed the last thing that was made. -/
def AfterLast (made : E → Prop) (P : List E → Prop) (h : List E) : Prop :=
  ∃ before e after, h = before ++ e :: after ∧ made e ∧ (∀ x ∈ after, ¬ made x) ∧ P after

theorem afterLast_append_of_made {P : List E → Prop} (he : made e) :
    AfterLast made P (h ++ [e]) ↔ P [] := by
  constructor
  · rintro ⟨before, m, after, hh, -, hu, hp⟩
    rcases List.eq_nil_or_concat after with rfl | ⟨after, x, rfl⟩
    · exact hp
    · rw [List.concat_eq_append] at hh hu
      rw [← List.cons_append, ← List.append_assoc] at hh
      obtain ⟨-, hx⟩ := List.append_inj' hh rfl
      obtain rfl := List.singleton_inj.1 hx
      exact absurd he (hu e (List.mem_append_right _ List.mem_cons_self))
  · intro hp
    exact ⟨h, e, [], rfl, he, fun x hx => absurd hx List.not_mem_nil, hp⟩

theorem afterLast_append_of_not {P : List E → Prop} (he : ¬ made e) :
    AfterLast made P (h ++ [e]) ↔ AfterLast made (fun after => P (after ++ [e])) h := by
  constructor
  · rintro ⟨before, m, after, hh, hm, hu, hp⟩
    rcases List.eq_nil_or_concat after with rfl | ⟨after, x, rfl⟩
    · obtain ⟨-, rfl⟩ := List.append_inj' hh rfl |>.imp_right List.singleton_inj.1
      exact absurd hm he
    · rw [List.concat_eq_append] at hh hu hp
      rw [← List.cons_append, ← List.append_assoc] at hh
      obtain ⟨rfl, hx⟩ := List.append_inj' hh rfl
      obtain rfl := List.singleton_inj.1 hx
      exact ⟨before, m, after, rfl, hm, fun y hy => hu y (List.mem_append_left _ hy), hp⟩
  · rintro ⟨before, m, after, rfl, hm, hu, hp⟩
    refine ⟨before, m, after ++ [e], by simp, hm, fun x hx => ?_, hp⟩
    rcases List.mem_append.1 hx with hx | hx
    · exact hu x hx
    · rw [List.mem_singleton.1 hx]
      exact he

theorem afterLast_of_exists (hm : ∃ e ∈ h, made e) : AfterLast made (fun _ => True) h := by
  induction h with
  | nil =>
    obtain ⟨e, he, -⟩ := hm
    cases he
  | cons x h ih =>
    by_cases ht : ∃ e ∈ h, made e
    · obtain ⟨before, e, after, rfl, he, hu, -⟩ := ih ht
      exact ⟨x :: before, e, after, rfl, he, hu, trivial⟩
    · obtain ⟨e, he, hm⟩ := hm
      rcases List.mem_cons.1 he with rfl | he
      · exact ⟨[], e, h, rfl, hm, fun y hy hy' => ht ⟨y, hy, hy'⟩, trivial⟩
      · exact absurd ⟨e, he, hm⟩ ht

theorem afterLast_since_append {put taken : E → Prop} (he : ¬ made e) (hm : ∃ e ∈ h, made e) :
    AfterLast made (Since put taken) (h ++ [e]) ↔
      put e ∨ (AfterLast made (Since put taken) h ∧ ¬ taken e) := by
  rw [afterLast_append_of_not he]
  constructor
  · rintro ⟨before, m, after, hh, hm, hu, hp⟩
    rcases since_append_singleton.1 hp with hp | ⟨hp, ht⟩
    · exact .inl hp
    · exact .inr ⟨⟨before, m, after, hh, hm, hu, hp⟩, ht⟩
  · rintro (hp | ⟨⟨before, m, after, hh, hm, hu, hp⟩, ht⟩)
    · obtain ⟨before, m, after, hh, hm, hu, -⟩ := afterLast_of_exists hm
      exact ⟨before, m, after, hh, hm, hu, since_append_singleton.2 (.inl hp)⟩
    · exact ⟨before, m, after, hh, hm, hu, since_append_singleton.2 (.inr ⟨hp, ht⟩)⟩

theorem exists_of_since (hs : Since made undone h) : ∃ e ∈ h, made e := by
  obtain ⟨before, e, after, rfl, he, -⟩ := hs
  exact ⟨e, List.mem_append_right _ List.mem_cons_self, he⟩

def latest (said : E → Option α) (first : α) (h : List E) : α :=
  (h.reverse.findSome? said).getD first

theorem latest_append_singleton (said : E → Option α) (first : α) (h : List E) (e : E) :
    latest said first (h ++ [e]) = (said e).getD (latest said first h) := by
  simp only [latest, List.reverse_append, List.reverse_singleton, List.singleton_append,
    List.findSome?_cons]
  cases said e <;> rfl

end AccessControl
