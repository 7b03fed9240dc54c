import AccessControl.Text.Utf8

/-!
# Bytes that are text

The strict reader takes exactly the bytes that some text is written in, and gives that text back.
-/

namespace AccessControl.Text

variable {c : Char} {a b : UInt8} {n y : Nat} {r bytes : List UInt8} {cs : List Char}

theorem toNat_ofNat_of_valid (h : n.isValidChar) : (Char.ofNat n).toNat = n := by
  rw [Char.ofNat, dif_pos h]
  rfl

theorem continuation_eq_some_iff : continuation b = some y ↔ b.toNat = y + 128 ∧ y < 64 := by
  have hb := b.toNat_lt
  unfold continuation
  split <;> simp <;> omega

theorem scalarFrom_eq_some_iff {least : Nat} :
    scalarFrom least n = some c ↔ c.toNat = n ∧ least ≤ n := by
  unfold scalarFrom
  split
  · rename_i h
    rw [Option.some.injEq]
    constructor
    · rintro rfl
      exact ⟨toNat_ofNat_of_valid h.2, h.1⟩
    · rintro ⟨rfl, -⟩
      exact Char.ofNat_toNat c
  · rename_i h
    refine iff_of_false nofun ?_
    rintro ⟨rfl, hle⟩
    exact h ⟨hle, c.valid⟩

inductive Encodes (c : Char) : List UInt8 → Prop
  | one {a : UInt8} (ha : a.toNat = c.toNat) (hc : c.toNat < 0x80) : Encodes c [a]
  | two {a b : UInt8} {y : Nat} (ha : a.toNat / 32 = 6) (hb : b.toNat = y + 128 ∧ y < 64)
      (hn : c.toNat = a.toNat % 32 * 64 + y) (hc : 0x80 ≤ c.toNat) : Encodes c [a, b]
  | three {a b d : UInt8} {y z : Nat} (ha : a.toNat / 16 = 14) (hb : b.toNat = y + 128 ∧ y < 64)
      (hd : d.toNat = z + 128 ∧ z < 64) (hn : c.toNat = (a.toNat % 16 * 64 + y) * 64 + z)
      (hc : 0x800 ≤ c.toNat) : Encodes c [a, b, d]
  | four {a b d e : UInt8} {x y z : Nat} (ha : a.toNat / 8 = 30) (hb : b.toNat = x + 128 ∧ x < 64)
      (hd : d.toNat = y + 128 ∧ y < 64) (he : e.toNat = z + 128 ∧ z < 64)
      (hn : c.toNat = ((a.toNat % 8 * 64 + x) * 64 + y) * 64 + z) (hc : 0x10000 ≤ c.toNat) :
    Encodes c [a, b, d, e]

theorem utf8EncodeChar_eq (c : Char) :
    String.utf8EncodeChar c =
      if c.toNat ≤ 0x7F then [.ofNat c.toNat]
      else if c.toNat ≤ 0x7FF then [.ofNat (c.toNat / 64 % 32 + 192), .ofNat (c.toNat % 64 + 128)]
      else if c.toNat ≤ 0xFFFF then
        [.ofNat (c.toNat / 4096 % 16 + 224), .ofNat (c.toNat / 64 % 64 + 128),
          .ofNat (c.toNat % 64 + 128)]
      else
        [.ofNat (c.toNat / 262144 % 8 + 240), .ofNat (c.toNat / 4096 % 64 + 128),
          .ofNat (c.toNat / 64 % 64 + 128), .ofNat (c.toNat % 64 + 128)] := rfl

theorem Encodes.eq (h : Encodes c bytes) : bytes = String.utf8EncodeChar c := by
  rw [utf8EncodeChar_eq]
  cases h with
  | @one a ha hc => rw [if_pos (by omega), ← ha, UInt8.ofNat_toNat]
  | @two a b y ha hb hn hc =>
    have hlt := a.toNat_lt
    rw [if_neg (by omega), if_pos (by omega)]
    simp only [List.cons.injEq, ← UInt8.toNat_inj, UInt8.toNat_ofNat', and_true]
    omega
  | @three a b d y z ha hb hd hn hc =>
    have hlt := a.toNat_lt
    rw [if_neg (by omega), if_neg (by omega), if_pos (by omega)]
    simp only [List.cons.injEq, ← UInt8.toNat_inj, UInt8.toNat_ofNat', and_true]
    omega
  | @four a b d e x y z ha hb hd he hn hc =>
    have hlt := a.toNat_lt
    rw [if_neg (by omega), if_neg (by omega), if_neg (by omega)]
    simp only [List.cons.injEq, ← UInt8.toNat_inj, UInt8.toNat_ofNat', and_true]
    omega

theorem encodes_utf8EncodeChar (c : Char) : Encodes c (String.utf8EncodeChar c) := by
  have hc : c.toNat < 0x110000 := by
    rcases c.valid with h | h
    · exact Nat.lt_trans h (by decide)
    · exact h.2
  rw [utf8EncodeChar_eq]
  split
  · refine .one ?_ (by omega)
    rw [UInt8.toNat_ofNat']
    omega
  · split
    · refine .two (y := c.toNat % 64) ?_ ?_ ?_ (by omega) <;>
        simp only [UInt8.toNat_ofNat'] <;> omega
    · split
      · refine .three (y := c.toNat / 64 % 64) (z := c.toNat % 64) ?_ ?_ ?_ ?_ (by omega) <;>
          simp only [UInt8.toNat_ofNat'] <;> omega
      · refine .four (x := c.toNat / 4096 % 64) (y := c.toNat / 64 % 64) (z := c.toNat % 64)
          ?_ ?_ ?_ ?_ ?_ (by omega) <;> simp only [UInt8.toNat_ofNat'] <;> omega

theorem encodes_of_takeChar (h : takeChar bytes = some (c, r)) :
    ∃ front, bytes = front ++ r ∧ Encodes c front := by
  unfold takeChar at h
  split at h
  · cases h
  · rename_i a r'
    dsimp only at h
    split at h
    · rename_i ha
      cases h
      exact ⟨[a], rfl, .one (toNat_ofNat_of_valid (.inl (by omega))).symm
        (by rw [toNat_ofNat_of_valid (.inl (by omega))]; exact ha)⟩
    · simp only [Option.bind_eq_bind] at h
      split at h
      · rename_i ha
        split at h
        · rename_i b r''
          simp only [Option.bind_eq_some_iff, continuation_eq_some_iff, scalarFrom_eq_some_iff,
            Option.some.injEq, Prod.mk.injEq] at h
          obtain ⟨y, hb, c', ⟨hn, hc⟩, rfl, rfl⟩ := h
          exact ⟨[a, b], rfl, .two ha hb hn (hn ▸ hc)⟩
        · cases h
      · split at h
        · rename_i ha
          split at h
          · rename_i b d r''
            simp only [Option.bind_eq_some_iff, continuation_eq_some_iff, scalarFrom_eq_some_iff,
              Option.some.injEq, Prod.mk.injEq] at h
            obtain ⟨y, hb, z, hd, c', ⟨hn, hc⟩, rfl, rfl⟩ := h
            exact ⟨[a, b, d], rfl, .three ha hb hd hn (hn ▸ hc)⟩
          · cases h
        · split at h
          · rename_i ha
            split at h
            · rename_i b d e r''
              simp only [Option.bind_eq_some_iff, continuation_eq_some_iff, scalarFrom_eq_some_iff,
                Option.some.injEq, Prod.mk.injEq] at h
              obtain ⟨x, hb, y, hd, z, he, c', ⟨hn, hc⟩, rfl, rfl⟩ := h
              exact ⟨[a, b, d, e], rfl, .four ha hb hd he hn (hn ▸ hc)⟩
            · cases h
          · cases h

theorem takeChar_of_encodes {front : List UInt8} (h : Encodes c front) :
    takeChar (front ++ r) = some (c, r) := by
  cases h with
  | one ha hc => simp [takeChar, ha, hc]
  | two ha hb hn hc =>
    have hscalar := scalarFrom_eq_some_iff.2 ⟨hn, hn ▸ hc⟩
    simp only [takeChar, List.cons_append, List.nil_append]
    rw [if_neg (by omega), if_pos ha, continuation_eq_some_iff.2 hb]
    simp [hscalar]
  | three ha hb hd hn hc =>
    have hscalar := scalarFrom_eq_some_iff.2 ⟨hn, hn ▸ hc⟩
    simp only [takeChar, List.cons_append, List.nil_append]
    rw [if_neg (by omega), if_neg (by omega), if_pos ha, continuation_eq_some_iff.2 hb,
      continuation_eq_some_iff.2 hd]
    simp [hscalar]
  | four ha hb hd he hn hc =>
    have hscalar := scalarFrom_eq_some_iff.2 ⟨hn, hn ▸ hc⟩
    simp only [takeChar, List.cons_append, List.nil_append]
    rw [if_neg (by omega), if_neg (by omega), if_neg (by omega), if_pos ha,
      continuation_eq_some_iff.2 hb, continuation_eq_some_iff.2 hd, continuation_eq_some_iff.2 he]
    simp [hscalar]

theorem takeChar_eq_some_iff :
    takeChar bytes = some (c, r) ↔ bytes = String.utf8EncodeChar c ++ r := by
  constructor
  · intro h
    obtain ⟨front, rfl, hf⟩ := encodes_of_takeChar h
    rw [hf.eq]
  · rintro rfl
    exact takeChar_of_encodes (encodes_utf8EncodeChar c)

theorem utf8_eq_nil_iff : utf8 cs = [] ↔ cs = [] := by
  cases cs with
  | nil => simp [utf8_nil]
  | cons c cs => simp [utf8_cons, String.utf8EncodeChar_ne_nil]

theorem length_lt_utf8_cons (c : Char) (r : List UInt8) :
    r.length < (String.utf8EncodeChar c ++ r).length := by
  have hpos := List.length_pos_iff.2 (String.utf8EncodeChar_ne_nil (c := c))
  rw [List.length_append]
  omega

theorem ofUtf8Within_nil (fuel : Nat) : ofUtf8Within fuel [] = some [] := by
  cases fuel <;> rfl

theorem ofUtf8Within_eq_some_iff {fuel : Nat} (hfuel : bytes.length ≤ fuel) :
    ofUtf8Within fuel bytes = some cs ↔ bytes = utf8 cs := by
  induction fuel generalizing bytes cs with
  | zero =>
    obtain rfl := List.eq_nil_of_length_eq_zero (Nat.le_zero.1 hfuel)
    rw [ofUtf8Within_nil, Option.some.injEq, eq_comm, ← utf8_eq_nil_iff, eq_comm]
  | succ fuel ih =>
    cases bytes with
    | nil => rw [ofUtf8Within_nil, Option.some.injEq, eq_comm, ← utf8_eq_nil_iff, eq_comm]
    | cons b bs =>
      simp only [ofUtf8Within]
      constructor
      · intro h
        split at h
        · rename_i c r hc
          obtain ⟨cs, hcs, rfl⟩ := Option.map_eq_some_iff.1 h
          have hbytes := takeChar_eq_some_iff.1 hc
          have hlen := length_lt_utf8_cons c r
          rw [← hbytes] at hlen
          rw [hbytes, utf8_cons, ← (ih (by omega)).1 hcs]
        · cases h
      · intro h
        cases cs with
        | nil => cases h
        | cons c cs =>
          have hlen := length_lt_utf8_cons c (utf8 cs)
          rw [← utf8_cons, ← h] at hlen
          have hrest : ofUtf8Within fuel (utf8 cs) = some cs := (ih (by omega)).2 rfl
          simp only [takeChar_eq_some_iff.2 (h.trans (utf8_cons c cs)), hrest, Option.map_some]

theorem ofUtf8?_eq_some_iff : ofUtf8? bytes = some cs ↔ bytes = utf8 cs :=
  ofUtf8Within_eq_some_iff (Nat.le_refl _)

end AccessControl.Text
