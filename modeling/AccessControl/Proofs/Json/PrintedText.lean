import AccessControl.Json.Printer
import AccessControl.Proofs.Json.DocumentText
import Mathlib.Data.List.Forall2

/-!
# Printed text

Both layouts of a value spell it, if there is no number in it: what is printed is one document, and
it is read as the value it was printed from.
-/

namespace AccessControl.Json

open Reading Text

inductive NumberFree : Json → Prop
  | null : NumberFree .null
  | bool (b : Bool) : NumberFree (.bool b)
  | str (s : String) : NumberFree (.str s)
  | arr {items : List Json} (h : ∀ v ∈ items, NumberFree v) : NumberFree (.arr items)
  | obj {members : List (String × Json)} (h : ∀ m ∈ members, NumberFree m.2) :
    NumberFree (.obj members)

theorem natIn_controlCode : ∀ n < 0x20,
    natIn 16 ['0', '0', Nat.digitChar (n / 16), Nat.digitChar (n % 16)] = some n := by
  decide

theorem glyph_escapeChar (c : Char) : Glyph c (escapeChar c) := by
  by_cases hshort : c ∈ ['"', '\\', '\x08', '\t', '\n', '\x0c', '\r']
  · simp only [List.mem_cons, List.not_mem_nil, or_false] at hshort
    rcases hshort with rfl | rfl | rfl | rfl | rfl | rfl | rfl <;> exact .simple rfl
  · simp only [List.mem_cons, List.not_mem_nil, or_false, not_or] at hshort
    obtain ⟨hquote, hslash, hb, ht, hn, hf, hr⟩ := hshort
    simp only [escapeChar, if_neg hquote, if_neg hslash, if_neg hb, if_neg ht, if_neg hn,
      if_neg hf, if_neg hr]
    split
    · rename_i hc
      have hglyph := Glyph.unicode (.digits (natIn_controlCode c.toNat hc)) (.inl (by omega))
      rwa [Char.ofNat_toNat] at hglyph
    · rename_i hc
      exact .plain hquote hslash (Nat.le_of_not_lt hc)

theorem glyphs_escape (cs : List Char) : Glyphs (some cs) (escape cs) := by
  induction cs with
  | nil => exact .nil
  | cons c cs ih => exact .cons (glyph_escapeChar c) ih

theorem stringText_quote (s : String) : StringText (some s) (quote s) :=
  ⟨some s.toList, escape s.toList, glyphs_escape s.toList, by simp, rfl⟩

def rowText (lead : List Char) : List (List Char) → List Char
  | [] => []
  | [t] => lead ++ t
  | t :: ts => lead ++ t ++ ',' :: rowText lead ts

theorem eq_rowText {α : Type} {f : List α → List Char} {g : α → List Char} {lead : List Char}
    (hnil : f [] = []) (hone : ∀ x, f [x] = lead ++ g x)
    (hcons : ∀ x y xs, f (x :: y :: xs) = lead ++ g x ++ ',' :: f (y :: xs)) (xs : List α) :
    f xs = rowText lead (xs.map g) := by
  induction xs with
  | nil => exact hnil
  | cons x xs ih =>
    cases xs with
    | nil => exact hone x
    | cons y xs =>
      rw [hcons, ih]
      rfl

theorem compactItems_eq (vs : List Json) : compactItems vs = rowText [] (vs.map compactChars) :=
  eq_rowText (f := compactItems) rfl (fun _ => rfl) (fun _ _ _ => rfl) vs

theorem compactMembers_eq (ms : List (String × Json)) :
    compactMembers ms = rowText [] (ms.map fun m => quote m.1 ++ ':' :: compactChars m.2) :=
  eq_rowText (f := compactMembers) rfl (fun _ => rfl) (fun _ _ _ => rfl) ms

theorem prettyItems_eq (d : Nat) (vs : List Json) :
    prettyItems d vs = rowText (newLine d) (vs.map (prettyChars d)) :=
  eq_rowText (f := prettyItems d) rfl (fun _ => rfl) (fun _ _ _ => rfl) vs

theorem prettyMembers_eq (d : Nat) (ms : List (String × Json)) :
    prettyMembers d ms =
      rowText (newLine d) (ms.map fun m => quote m.1 ++ ':' :: ' ' :: prettyChars d m.2) :=
  eq_rowText (f := prettyMembers d) rfl (fun _ => by simp [prettyMembers])
    (fun _ _ _ => by simp [prettyMembers]) ms

/-- The texts of things in a row, each with blanks behind it. -/
inductive Row {α : Type} (Writes : α → List Char → Prop) : List α → List Char → Prop
  | last {x : α} {cs b : List Char} (h : Writes x cs) (hb : Blanks b) : Row Writes [x] (cs ++ b)
  | cons {x : α} {xs : List α} {cs us b b' : List Char} (h : Writes x cs) (hb : Blanks b)
      (hb' : Blanks b') (hs : Row Writes xs us) :
    Row Writes (x :: xs) (cs ++ (b ++ ',' :: (b' ++ us)))

theorem items_of_row {vs : List Reading} {us : List Char} (h : Row Spelled vs us) :
    Items vs us := by
  induction h with
  | last h hb => exact .last h hb
  | cons h hb hb' _ ih => exact .cons h hb hb' ih

theorem members_of_row {ms : List (Option String × Reading)} {us : List Char}
    (h : Row Member ms us) : Members ms us := by
  induction h with
  | last h hb => exact .last h hb
  | cons h hb hb' _ ih => exact .cons h hb hb' ih

variable {lead tail : List Char}

theorem row_rowText {α : Type} {Writes : α → List Char → Prop} {xs : List α}
    {ts : List (List Char)} (hlead : Blanks lead) (htail : Blanks tail)
    (h : List.Forall₂ Writes xs ts) (hne : xs ≠ []) :
    ∃ us, Row Writes xs us ∧ rowText lead ts ++ tail = lead ++ us := by
  induction h with
  | nil => exact absurd rfl hne
  | @cons x t xs ts hx hxs ih =>
    cases hxs with
    | nil => exact ⟨t ++ tail, .last hx htail, by simp [rowText]⟩
    | cons hy hys =>
      obtain ⟨us, hus, heq⟩ := ih nofun
      refine ⟨_, .cons hx blanks_nil hlead hus, ?_⟩
      simp [rowText, ← heq]

theorem spelled_rowText_items {vs : List Reading} {ts : List (List Char)} (hlead : Blanks lead)
    (htail : Blanks tail) (h : List.Forall₂ Spelled vs ts) :
    Spelled (.arr vs none) ('[' :: (rowText lead ts ++ tail ++ [']'])) := by
  rcases eq_or_ne vs [] with rfl | hne
  · cases h
    exact .noItems htail
  · obtain ⟨us, hus, heq⟩ := row_rowText hlead htail h hne
    rw [heq, List.append_assoc]
    exact .items hlead (items_of_row hus)

theorem spelled_rowText_members {ms : List (Option String × Reading)} {ts : List (List Char)}
    (hlead : Blanks lead) (htail : Blanks tail) (h : List.Forall₂ Member ms ts) :
    Spelled (.obj ms none) ('\x7b' :: (rowText lead ts ++ tail ++ ['\x7d'])) := by
  rcases eq_or_ne ms [] with rfl | hne
  · cases h
    exact .noMembers htail
  · obtain ⟨us, hus, heq⟩ := row_rowText hlead htail h hne
    rw [heq, List.append_assoc]
    exact .members hlead (members_of_row hus)

theorem blanks_newLine (d : Nat) : Blanks (newLine d) := by
  intro c hc
  rcases List.mem_cons.1 hc with rfl | hc
  · exact .inr (.inl rfl)
  · exact .inl (List.eq_of_mem_replicate hc)

theorem forall₂_spelled {vs : List Json} {text : Json → List Char}
    (h : ∀ v ∈ vs, Spelled v.reading (text v)) :
    List.Forall₂ Spelled (readings vs) (vs.map text) := by
  rw [readings_eq_map, List.forall₂_map_left_iff, List.forall₂_map_right_iff]
  exact List.forall₂_same.2 h

theorem forall₂_member {ms : List (String × Json)} {b : List Char} {text : Json → List Char}
    (hb : Blanks b) (h : ∀ m ∈ ms, Spelled m.2.reading (text m.2)) :
    List.Forall₂ Member (memberReadings ms)
      (ms.map fun m => quote m.1 ++ ':' :: (b ++ text m.2)) := by
  rw [memberReadings_eq_map, List.forall₂_map_left_iff, List.forall₂_map_right_iff]
  exact List.forall₂_same.2 fun m hm => .pair (stringText_quote m.1) blanks_nil hb (h m hm)

variable {j : Json}

theorem spelled_compact (h : NumberFree j) : Spelled j.reading (compactChars j) := by
  induction h with
  | null => exact .null
  | bool b =>
    cases b
    · exact .no
    · exact .yes
  | str s => exact .string (stringText_quote s)
  | arr _ ih =>
    have hrow := spelled_rowText_items blanks_nil blanks_nil (forall₂_spelled ih)
    rwa [← compactItems_eq, List.append_nil] at hrow
  | obj _ ih =>
    have hrow := spelled_rowText_members blanks_nil blanks_nil (forall₂_member blanks_nil ih)
    simp only [List.nil_append] at hrow
    rwa [← compactMembers_eq, List.append_nil] at hrow

theorem spelled_pretty (h : NumberFree j) (d : Nat) : Spelled j.reading (prettyChars d j) := by
  induction h generalizing d with
  | null => exact .null
  | bool b =>
    cases b
    · exact .no
    · exact .yes
  | str s => exact .string (stringText_quote s)
  | @arr items _ ih =>
    cases items with
    | nil => exact .noItems blanks_nil
    | cons v vs =>
      have hrow := spelled_rowText_items (blanks_newLine (d + 1)) (blanks_newLine d)
        (forall₂_spelled fun w hw => ih w hw (d + 1))
      rwa [← prettyItems_eq] at hrow
  | @obj members _ ih =>
    cases members with
    | nil => exact .noMembers blanks_nil
    | cons m ms =>
      have hblank : Blanks [' '] := fun c hc => .inl (List.mem_singleton.1 hc)
      have hrow := spelled_rowText_members (blanks_newLine (d + 1)) (blanks_newLine d)
        (forall₂_member hblank fun n hn => ih n hn (d + 1))
      simp only [List.singleton_append] at hrow
      rwa [← prettyMembers_eq] at hrow

theorem treeText_compact (h : NumberFree j) : TreeText j.reading j.compact.toList :=
  ⟨[], compactChars j, [], by simp [compact], nofun, spelled_compact h, nofun⟩

theorem treeText_pretty (h : NumberFree j) : TreeText j.reading j.pretty.toList :=
  ⟨[], prettyChars 0 j, [], by simp [pretty], nofun, spelled_pretty h 0, nofun⟩

end AccessControl.Json
