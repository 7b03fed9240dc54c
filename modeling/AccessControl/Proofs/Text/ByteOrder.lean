import AccessControl.Text.Utf8

/-!
# The order of bytes

Texts compared by the bytes of their UTF-8 form stand in the order of their code points.
-/

namespace AccessControl.Text

def BytesLe (s t : String) : Prop := utf8 s.toList ≤ utf8 t.toList

/-- The first difference of two characters shows in their bytes, whatever follows. -/
theorem utf8EncodeChar_append_lt {c d : Char} (h : c < d) (x y : List UInt8) :
    String.utf8EncodeChar c ++ x < String.utf8EncodeChar d ++ y := by
  have hlt : c.val.toNat < d.val.toNat := h
  have hd : d.val.toNat < 0x110000 := by
    rcases d.valid with h | h
    · exact Nat.lt_trans h (by decide)
    · exact h.2
  -- six bits at a time, so that the digits of both numbers can be compared one by one
  have h₂ (n : Nat) : n / 4096 = n / 64 / 64 := by omega
  have h₃ (n : Nat) : n / 262144 = n / 64 / 64 / 64 := by omega
  simp only [String.utf8EncodeChar, h₂, h₃]
  generalize c.val.toNat = m at hlt ⊢
  generalize d.val.toNat = n at hlt hd ⊢
  repeat' split
  all_goals
    simp only [List.cons_append, List.nil_append, List.cons_lt_cons_iff, UInt8.lt_iff_toNat_lt,
      ← UInt8.toNat_inj, UInt8.toNat_ofNat']
    omega

theorem utf8_lt_utf8_of_lt {a b : List Char} (h : a < b) : utf8 a < utf8 b := by
  induction a generalizing b with
  | nil =>
    cases b with
    | nil => cases h
    | cons d b =>
      rw [utf8_cons]
      cases hd : String.utf8EncodeChar d with
      | nil => exact absurd hd String.utf8EncodeChar_ne_nil
      | cons x xs => exact List.nil_lt_cons x _
  | cons c a ih =>
    cases b with
    | nil => cases h
    | cons d b =>
      rw [utf8_cons, utf8_cons]
      rcases List.cons_lt_cons_iff.1 h with h | ⟨rfl, hab⟩
      · exact utf8EncodeChar_append_lt h _ _
      · exact List.append_left_lt (ih hab)

theorem utf8_lt_utf8_iff {a b : List Char} : utf8 a < utf8 b ↔ a < b := by
  refine ⟨fun h => ?_, utf8_lt_utf8_of_lt⟩
  by_cases hab : a < b
  · exact hab
  · rcases List.le_iff_lt_or_eq.1 (List.not_lt.1 hab) with hba | rfl
    · exact absurd (utf8_lt_utf8_of_lt hba) (List.lt_asymm h)
    · exact absurd h (List.lt_irrefl _)

theorem utf8_injective {a b : List Char} (h : utf8 a = utf8 b) : a = b := by
  have hne {x y : List Char} (hlt : x < y) : utf8 x ≠ utf8 y := by
    intro he
    have hbytes := utf8_lt_utf8_of_lt hlt
    rw [he] at hbytes
    exact List.lt_irrefl _ hbytes
  rcases List.le_iff_lt_or_eq.1 (List.not_lt.1 fun hab : a < b => hne hab h) with hba | hba
  · exact absurd h.symm (hne hba)
  · exact hba.symm

theorem bytesLe_iff_le {s t : String} : BytesLe s t ↔ s ≤ t :=
  not_congr utf8_lt_utf8_iff

theorem pairwise_mergeSort (ss : List String) :
    (ss.mergeSort fun s t => s ≤ t).Pairwise BytesLe := by
  have h := @List.pairwise_mergeSort String (fun s t => decide (s ≤ t))
    (fun s t u hst htu => by
      rw [decide_eq_true_eq] at hst htu ⊢
      exact String.le_trans hst htu)
    (fun s t => by simpa using String.le_total s t) ss
  exact h.imp fun hst => bytesLe_iff_le.2 (of_decide_eq_true hst)

theorem pairwise_lt_mergeSort {ss : List String} (h : ss.Nodup) :
    (ss.mergeSort fun s t => s ≤ t).Pairwise fun s t => utf8 s.toList < utf8 t.toList := by
  have hnodup : (ss.mergeSort fun s t => s ≤ t).Nodup := (List.mergeSort_perm ss _).nodup_iff.2 h
  refine ((pairwise_mergeSort ss).and hnodup).imp fun {s t} hst => ?_
  obtain ⟨hle, hne⟩ := hst
  rcases List.le_iff_lt_or_eq.1 hle with hlt | heq
  · exact hlt
  · exact absurd (String.toList_injective (utf8_injective heq)) hne

end AccessControl.Text
