import AccessControl.Proofs.Text.ByteOrder
import AccessControl.Web.Percent

/-!
# Percent-encoding read back

Wherever the percent sign itself is encoded, what is read back are the bytes that were written. So
no two texts are written alike, and no character that has to be encoded shows.
-/

namespace AccessControl.Web

open Text

variable {must : Char → Bool} {c : Char} {cs ds : List Char}

theorem digitIn_upperHexDigit {n : Nat} (h : n < 16) : digitIn 16 (upperHexDigit n) = some n := by
  have hall : ∀ i : Fin 16, digitIn 16 (upperHexDigit i.val) = some i.val := by decide
  exact hall ⟨n, h⟩

theorem percentDecode_byteCode (b : UInt8) (r : List Char) :
    percentDecode (byteCode b ++ r) = b :: percentDecode r := by
  have hb := b.toNat_lt
  have hcode : b.toNat / 16 * 16 + b.toNat % 16 = b.toNat := by omega
  simp only [byteCode, List.cons_append, List.nil_append, percentDecode,
    digitIn_upperHexDigit (show b.toNat / 16 < 16 by omega),
    digitIn_upperHexDigit (show b.toNat % 16 < 16 by omega), hcode, UInt8.ofNat_toNat]

theorem percentDecode_byteCodes (bs : List UInt8) (r : List Char) :
    percentDecode (bs.flatMap byteCode ++ r) = bs ++ percentDecode r := by
  induction bs with
  | nil => rfl
  | cons b bs ih =>
    rw [List.flatMap_cons, List.append_assoc, percentDecode_byteCode, ih, List.cons_append]

theorem percentDecode_cons (h : c ≠ '%') (r : List Char) :
    percentDecode (c :: r) = String.utf8EncodeChar c ++ percentDecode r := by
  rw [percentDecode]
  rintro a b r' rfl
  exact absurd rfl h

theorem percentDecode_encodeChar (hm : must '%' = true) (c : Char) (r : List Char) :
    percentDecode (encodeChar must c ++ r) = String.utf8EncodeChar c ++ percentDecode r := by
  simp only [encodeChar]
  split
  · exact percentDecode_byteCodes _ r
  · rename_i hc
    refine percentDecode_cons ?_ r
    rintro rfl
    exact hc hm

theorem percentDecode_percentEncode (hm : must '%' = true) (cs : List Char) :
    percentDecode (percentEncode must cs) = utf8 cs := by
  induction cs with
  | nil => rfl
  | cons c cs ih =>
    have hcons : percentEncode must (c :: cs) = encodeChar must c ++ percentEncode must cs := rfl
    rw [hcons, percentDecode_encodeChar hm, ih, utf8_cons]

theorem percentEncode_injective (hm : must '%' = true)
    (h : percentEncode must cs = percentEncode must ds) : cs = ds := by
  have hbytes := congrArg percentDecode h
  rw [percentDecode_percentEncode hm, percentDecode_percentEncode hm] at hbytes
  exact utf8_injective hbytes

theorem mem_percentEncode (h : c ∈ percentEncode must cs) :
    must c = false ∨ c = '%' ∨ ∃ n, n < 16 ∧ c = upperHexDigit n := by
  obtain ⟨d, -, hc⟩ := List.mem_flatMap.1 h
  simp only [encodeChar] at hc
  split at hc
  · obtain ⟨b, -, hb⟩ := List.mem_flatMap.1 hc
    have := b.toNat_lt
    simp only [byteCode, List.mem_cons, List.not_mem_nil, or_false] at hb
    rcases hb with rfl | rfl | rfl
    · exact .inr (.inl rfl)
    · exact .inr (.inr ⟨_, by omega, rfl⟩)
    · exact .inr (.inr ⟨_, by omega, rfl⟩)
  · rename_i hd
    rw [List.mem_singleton.1 hc]
    exact .inl (by simpa using hd)

end AccessControl.Web
