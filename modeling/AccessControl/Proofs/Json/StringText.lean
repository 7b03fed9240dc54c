import AccessControl.Json.Reading

/-!
# Strings in JSON text

Between its quotes a string is written glyph by glyph. An escape for half of a surrogate pair is a
glyph without a character, unless its other half comes next.
-/

namespace AccessControl.Json.Reading

open Text

inductive FourHex : List Char → Nat → Prop
  | digits {a b c d : Char} {n : Nat} (h : natIn 16 [a, b, c, d] = some n) : FourHex [a, b, c, d] n

inductive Glyph : Char → List Char → Prop
  | plain {c : Char} (hquote : c ≠ '"') (hslash : c ≠ '\\') (hc : 0x20 ≤ c.toNat) : Glyph c [c]
  | simple {e c : Char} (h : simpleEscape e = some c) : Glyph c ['\\', e]
  | unicode {ds : List Char} {n : Nat} (h : FourHex ds n) (hn : n < 0xD800 ∨ 0xDFFF < n) :
    Glyph (Char.ofNat n) ('\\' :: 'u' :: ds)
  | pair {ds es : List Char} {n m : Nat} (hd : FourHex ds n) (hn : 0xD800 ≤ n ∧ n < 0xDC00)
      (he : FourHex es m) (hm : 0xDC00 ≤ m ∧ m ≤ 0xDFFF) :
    Glyph (Char.ofNat (0x10000 + (n - 0xD800) * 0x400 + (m - 0xDC00)))
      ('\\' :: 'u' :: (ds ++ '\\' :: 'u' :: es))

def SecondHalf (cs : List Char) : Prop :=
  ∃ ds m r, cs = '\\' :: 'u' :: (ds ++ r) ∧ FourHex ds m ∧ 0xDC00 ≤ m ∧ m ≤ 0xDFFF

/-- The texts of a string between its quotes, or of none where half of a pair is alone. -/
inductive Glyphs : Option (List Char) → List Char → Prop
  | nil : Glyphs (some []) []
  | cons {c : Char} {g us : List Char} {t : Option (List Char)} (h : Glyph c g) (hs : Glyphs t us) :
    Glyphs (t.map (c :: ·)) (g ++ us)
  | lone {ds us : List Char} {n : Nat} {t : Option (List Char)} (h : FourHex ds n)
      (hn : 0xD800 ≤ n ∧ n ≤ 0xDFFF) (hnext : n < 0xDC00 → ¬ SecondHalf us) (hs : Glyphs t us) :
    Glyphs none ('\\' :: 'u' :: (ds ++ us))

def StringText (s : Option String) (cs : List Char) : Prop :=
  ∃ t us, Glyphs t us ∧ s = t.map String.ofList ∧ cs = '"' :: (us ++ ['"'])

variable {cs ds r us : List Char} {n : Nat} {c : Char} {acc t : Option (List Char)}

theorem fourHex_eq_ok_iff : fourHex cs = .ok (n, r) ↔ ∃ ds, cs = ds ++ r ∧ FourHex ds n := by
  constructor
  · intro h
    unfold fourHex at h
    split at h
    · split at h
      · rename_i hn
        cases h
        exact ⟨_, rfl, .digits hn⟩
      · cases h
    · split at h <;> cases h
  · rintro ⟨ds, rfl, h⟩
    cases h with
    | digits h => simp [fourHex, h]

theorem unicodeEscape_some (h : unicodeEscape cs = .ok (some c, r)) :
    ∃ g, '\\' :: 'u' :: cs = g ++ r ∧ Glyph c g := by
  unfold unicodeEscape at h
  split at h
  · cases h
  · rename_i n r' hn
    obtain ⟨ds, rfl, hds⟩ := fourHex_eq_ok_iff.1 hn
    split at h
    · rename_i hrange
      cases h
      exact ⟨'\\' :: 'u' :: ds, rfl, .unicode hds hrange⟩
    · split at h
      · cases h
      · rename_i hsurrogate hfirst
        split at h
        · cases h
        · cases h
        · split at h
          · cases h
          · rename_i m r'' hm
            split at h
            · rename_i hlow
              simp only [Except.ok.injEq, Prod.mk.injEq, Option.some.injEq] at h
              obtain ⟨rfl, rfl⟩ := h
              obtain ⟨es, rfl, hes⟩ := fourHex_eq_ok_iff.1 hm
              have hhigh : 0xD800 ≤ n ∧ n < 0xDC00 := by omega
              have hpair := Glyph.pair hds hhigh hes hlow
              exact ⟨_, by simp, hpair⟩
            · cases h
        · cases h

theorem unicodeEscape_none (h : unicodeEscape cs = .ok (none, r)) :
    ∃ ds n, cs = ds ++ r ∧ FourHex ds n ∧ (0xD800 ≤ n ∧ n ≤ 0xDFFF) ∧
      (n < 0xDC00 → ¬ SecondHalf r) := by
  unfold unicodeEscape at h
  split at h
  · cases h
  · rename_i n r' hn
    obtain ⟨ds, rfl, hds⟩ := fourHex_eq_ok_iff.1 hn
    split at h
    · cases h
    · rename_i hsurrogate
      split at h
      · rename_i hlow
        cases h
        exact ⟨ds, n, rfl, hds, by omega, by omega⟩
      · split at h
        · cases h
        · cases h
        · split at h
          · cases h
          · rename_i m r'' hm
            split at h
            · cases h
            · rename_i hlow
              cases h
              refine ⟨ds, n, rfl, hds, by omega, fun _ => ?_⟩
              rintro ⟨es, k, s, heq, hes, hk⟩
              cases heq
              rw [fourHex_eq_ok_iff.2 ⟨es, rfl, hes⟩] at hm
              cases hm
              exact hlow hk
        · rename_i hother
          cases h
          refine ⟨ds, n, rfl, hds, by omega, fun _ => ?_⟩
          rintro ⟨es, k, s, rfl, hes, hk⟩
          exact hother _ rfl

theorem unicodeEscape_single (h : FourHex ds n) (hn : n < 0xD800 ∨ 0xDFFF < n) :
    unicodeEscape (ds ++ r) = .ok (some (Char.ofNat n), r) := by
  simp only [unicodeEscape, fourHex_eq_ok_iff.2 ⟨ds, rfl, h⟩, if_pos hn]

theorem unicodeEscape_pair {es : List Char} {m : Nat} (hd : FourHex ds n)
    (hn : 0xD800 ≤ n ∧ n < 0xDC00) (he : FourHex es m) (hm : 0xDC00 ≤ m ∧ m ≤ 0xDFFF) :
    unicodeEscape (ds ++ '\\' :: 'u' :: (es ++ r)) =
      .ok (some (Char.ofNat (0x10000 + (n - 0xD800) * 0x400 + (m - 0xDC00))), r) := by
  have hsurrogate : ¬ (n < 0xD800 ∨ 0xDFFF < n) := by omega
  have hhigh : ¬ 0xDC00 ≤ n := by omega
  simp only [unicodeEscape, fourHex_eq_ok_iff.2 ⟨ds, rfl, hd⟩, if_neg hsurrogate, if_neg hhigh,
    fourHex_eq_ok_iff.2 ⟨es, rfl, he⟩, if_pos hm]

theorem Glyphs.start (hs : Glyphs t us) :
    us = [] ∨ (∃ c r, us = c :: r ∧ c ≠ '\\') ∨ (∃ e r, us = '\\' :: e :: r ∧ e ≠ 'u') ∨
      ∃ ds n r, us = '\\' :: 'u' :: (ds ++ r) ∧ FourHex ds n := by
  cases hs with
  | nil => exact .inl rfl
  | @cons c g us t h hs =>
    cases h with
    | plain hquote hslash hc => exact .inr (.inl ⟨c, us, rfl, hslash⟩)
    | @simple e _ h =>
      refine .inr (.inr (.inl ⟨e, us, rfl, ?_⟩))
      rintro rfl
      cases h
    | @unicode ds n h hn => exact .inr (.inr (.inr ⟨ds, n, us, rfl, h⟩))
    | @pair ds es n m hd hn he hm =>
      exact .inr (.inr (.inr ⟨ds, n, '\\' :: 'u' :: es ++ us, by simp, hd⟩))
  | @lone ds us n t h hn hnext hs => exact .inr (.inr (.inr ⟨ds, n, us, rfl, h⟩))

theorem unicodeEscape_lone (h : FourHex ds n) (hn : 0xD800 ≤ n ∧ n ≤ 0xDFFF)
    (hnext : n < 0xDC00 → ¬ SecondHalf us) (hs : Glyphs t us) (r : List Char) :
    unicodeEscape (ds ++ (us ++ '"' :: r)) = .ok (none, us ++ '"' :: r) := by
  have hsurrogate : ¬ (n < 0xD800 ∨ 0xDFFF < n) := by omega
  simp only [unicodeEscape, fourHex_eq_ok_iff.2 ⟨ds, rfl, h⟩, if_neg hsurrogate]
  by_cases hlow : 0xDC00 ≤ n
  · rw [if_pos hlow]
  · rw [if_neg hlow]
    rcases hs.start with rfl | ⟨c, us, rfl, hc⟩ | ⟨e, us, rfl, he⟩ | ⟨es, m, us, rfl, hes⟩
    · simp
    · simp [hc]
    · simp [he]
    · have hm : ¬ (0xDC00 ≤ m ∧ m ≤ 0xDFFF) := fun hm =>
        hnext (by omega) ⟨es, m, us, rfl, hes, hm⟩
      simp only [List.cons_append, List.append_assoc, fourHex_eq_ok_iff.2 ⟨es, rfl, hes⟩, if_neg hm]

/-- The text of a string, from the text before a place, kept backwards, and the text after it. -/
def joined (acc t : Option (List Char)) : Option String :=
  acc.bind fun a => t.map fun t => String.ofList (a.reverse ++ t)

theorem joined_cons (acc t : Option (List Char)) (c : Char) :
    joined (acc.map (c :: ·)) t = joined acc (t.map (c :: ·)) := by
  cases acc <;> cases t <;> simp only [joined, Option.map_some, Option.map_none, Option.bind_some,
    Option.bind_none, List.reverse_cons, List.append_assoc, List.singleton_append]

theorem joined_none (acc : Option (List Char)) : joined acc none = none := by
  cases acc <;> rfl

theorem joined_nil (acc : Option (List Char)) :
    joined acc (some []) = acc.map fun a => String.ofList a.reverse := by
  cases acc <;> simp [joined]

section Steps

variable (fuel : Nat) (acc : Option (List Char))

theorem quotedWithin_plain (hquote : c ≠ '"') (hslash : c ≠ '\\') (hc : ¬ c.toNat < 0x20) :
    quotedWithin (fuel + 1) acc (c :: r) = quotedWithin fuel (acc.map (c :: ·)) r := by
  simp only [quotedWithin, if_neg hquote, if_neg hslash, if_neg hc]

theorem quotedWithin_simple {e : Char} (h : simpleEscape e = some c) :
    quotedWithin (fuel + 1) acc ('\\' :: e :: r) = quotedWithin fuel (acc.map (c :: ·)) r := by
  have he : e ≠ 'u' := by
    rintro rfl
    cases h
  simp [quotedWithin, h]

theorem quotedWithin_some (h : unicodeEscape cs = .ok (some c, r)) :
    quotedWithin (fuel + 1) acc ('\\' :: 'u' :: cs) = quotedWithin fuel (acc.map (c :: ·)) r := by
  simp [quotedWithin, h]

theorem quotedWithin_none (h : unicodeEscape cs = .ok (none, r)) :
    quotedWithin (fuel + 1) acc ('\\' :: 'u' :: cs) = quotedWithin fuel none r := by
  simp [quotedWithin, h]

end Steps

inductive Goes (fuel : Nat) (acc : Option (List Char)) (s : Option String) (r : List Char) :
    List Char → Prop
  | ends (hs : s = acc.map fun a => String.ofList a.reverse) : Goes fuel acc s r ('"' :: r)
  | on {c : Char} {g cs : List Char} (hg : Glyph c g)
      (h : quotedWithin fuel (acc.map (c :: ·)) cs = .closed s r) : Goes fuel acc s r (g ++ cs)
  | lone {ds cs : List Char} {n : Nat} (hd : FourHex ds n) (hn : 0xD800 ≤ n ∧ n ≤ 0xDFFF)
      (hnext : n < 0xDC00 → ¬ SecondHalf cs) (h : quotedWithin fuel none cs = .closed s r) :
    Goes fuel acc s r ('\\' :: 'u' :: (ds ++ cs))

theorem goes_of_escape {fuel : Nat} {s : Option String}
    (h : quotedWithin (fuel + 1) acc ('\\' :: cs) = .closed s r) :
    Goes fuel acc s r ('\\' :: cs) := by
  cases cs with
  | nil => simp [quotedWithin] at h
  | cons e cs =>
    by_cases hu : e = 'u'
    · subst hu
      cases hescape : unicodeEscape cs with
      | error f => simp [quotedWithin, hescape] at h
      | ok p =>
        obtain ⟨_ | d, r'⟩ := p
        · rw [quotedWithin_none _ _ hescape] at h
          obtain ⟨ds, n, rfl, hd, hn, hnext⟩ := unicodeEscape_none hescape
          exact .lone hd hn hnext h
        · rw [quotedWithin_some _ _ hescape] at h
          obtain ⟨g, hcs, hg⟩ := unicodeEscape_some hescape
          rw [hcs]
          exact .on hg h
    · cases hsimple : simpleEscape e with
      | none => simp [quotedWithin, hsimple] at h
      | some d =>
        rw [quotedWithin_simple _ _ hsimple] at h
        exact .on (.simple hsimple) h

theorem goes_of_closed {fuel : Nat} {s : Option String}
    (h : quotedWithin (fuel + 1) acc cs = .closed s r) : Goes fuel acc s r cs := by
  cases cs with
  | nil => simp [quotedWithin] at h
  | cons c cs =>
    by_cases hquote : c = '"'
    · subst hquote
      cases h
      exact .ends rfl
    · by_cases hslash : c = '\\'
      · subst hslash
        exact goes_of_escape h
      · by_cases hc : c.toNat < 0x20
        · simp [quotedWithin, hquote, hslash, hc] at h
        · rw [quotedWithin_plain _ _ hquote hslash hc] at h
          exact .on (.plain hquote hslash (Nat.le_of_not_lt hc)) h

theorem quotedWithin_sound {fuel : Nat} {s : Option String}
    (h : quotedWithin fuel acc cs = .closed s r) :
    ∃ t us, cs = us ++ '"' :: r ∧ Glyphs t us ∧ s = joined acc t := by
  induction fuel generalizing acc cs with
  | zero => cases h
  | succ fuel ih =>
    cases goes_of_closed h with
    | ends hs => exact ⟨some [], [], rfl, .nil, hs.trans (joined_nil acc).symm⟩
    | @on c g cs hg hrest =>
      obtain ⟨t, us, rfl, hs, rfl⟩ := ih hrest
      exact ⟨_, g ++ us, by rw [List.append_assoc], .cons hg hs, joined_cons acc t c⟩
    | @lone ds cs n hd hn hnext hrest =>
      obtain ⟨t, us, rfl, hs, rfl⟩ := ih hrest
      -- the text goes on with the other half only if the text up to the quote does
      have hnext' : n < 0xDC00 → ¬ SecondHalf us := by
        rintro hlow ⟨es, m, us', rfl, hes, hm⟩
        exact hnext hlow ⟨es, m, us' ++ '"' :: r, by simp, hes, hm⟩
      exact ⟨none, _, by simp, .lone hd hn hnext' hs, (joined_none acc).symm⟩

theorem quotedWithin_complete {fuel : Nat} (hs : Glyphs t us) (hfuel : us.length < fuel)
    (acc : Option (List Char)) (r : List Char) :
    quotedWithin fuel acc (us ++ '"' :: r) = .closed (joined acc t) r := by
  induction hs generalizing fuel acc with
  | nil =>
    obtain ⟨fuel, rfl⟩ := Nat.exists_eq_add_one_of_ne_zero (Nat.ne_zero_of_lt hfuel)
    rw [joined_nil]
    rfl
  | @cons c g us t h hs ih =>
    obtain ⟨fuel, rfl⟩ := Nat.exists_eq_add_one_of_ne_zero (Nat.ne_zero_of_lt hfuel)
    rw [← joined_cons]
    cases h with
    | plain hquote hslash hc =>
      rw [List.singleton_append, List.cons_append,
        quotedWithin_plain _ _ hquote hslash (Nat.not_lt.2 hc)]
      exact ih (by simpa using hfuel) _
    | simple h =>
      rw [List.cons_append, List.singleton_append, List.cons_append, List.cons_append,
        quotedWithin_simple _ _ h]
      exact ih (by simp at hfuel; omega) _
    | @unicode ds n h hn =>
      rw [List.append_assoc, List.cons_append, List.cons_append,
        quotedWithin_some _ _ (unicodeEscape_single h hn)]
      exact ih (by simp at hfuel; omega) _
    | @pair ds es n m hd hn he hm =>
      simp only [List.append_assoc, List.cons_append]
      rw [quotedWithin_some _ _ (unicodeEscape_pair hd hn he hm)]
      exact ih (by simp at hfuel; omega) _
  | @lone ds us n t h hn hnext hs ih =>
    obtain ⟨fuel, rfl⟩ := Nat.exists_eq_add_one_of_ne_zero (Nat.ne_zero_of_lt hfuel)
    simp only [List.append_assoc, List.cons_append]
    rw [quotedWithin_none _ _ (unicodeEscape_lone h hn hnext hs r), joined_none]
    exact ih (by simp at hfuel; omega) none

theorem joined_empty (t : Option (List Char)) : joined (some []) t = t.map String.ofList := by
  cases t <;> rfl

theorem quoted_eq_closed_iff {s : Option String} :
    quoted cs = .closed s r ↔ ∃ text, StringText s text ∧ '"' :: cs = text ++ r := by
  constructor
  · intro h
    obtain ⟨t, us, rfl, hs, rfl⟩ := quotedWithin_sound h
    exact ⟨_, ⟨t, us, hs, joined_empty t, rfl⟩, by simp⟩
  · rintro ⟨_, ⟨t, us, hs, rfl, rfl⟩, heq⟩
    obtain rfl : cs = us ++ '"' :: r := by simpa using heq
    have hfuel : us.length < (us ++ '"' :: r).length + 1 := by
      rw [List.length_append]
      omega
    rw [quoted, quotedWithin_complete hs hfuel, joined_empty]

end AccessControl.Json.Reading
