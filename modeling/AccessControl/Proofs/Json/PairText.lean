import AccessControl.Proofs.Json.PrintedText
import AccessControl.Proofs.Json.TextFields

/-!
# Pairs of texts

A pair of texts is written as an object with one member for each of them, or as an array of the two.
Each may go by several names, and members of other names do not count.
-/

namespace AccessControl.Json

def valuesNamed (names : List String) (ms : List (Option String × Reading)) : List Reading :=
  (ms.filter fun m => m.1.any names.contains).map (·.2)

/-- The trees that write a pair of texts, each under one of its names. -/
inductive WritesPair (firsts seconds : List String) : Reading → String → String → Prop
  | object {ms : List (Option String × Reading)} {x y : String}
      (hnames : ∀ m ∈ ms, m.1.isSome = true) (hfirst : valuesNamed firsts ms = [.str x])
      (hsecond : valuesNamed seconds ms = [.str y]) :
    WritesPair firsts seconds (.obj ms none) x y
  | array (x y : String) : WritesPair firsts seconds (.arr [.str x, .str y] none) x y

/-- A type of pairs of texts is parsed from exactly the texts that write a pair, and each of its
values is read back from what is printed for it, in either layout. -/
structure PairCodec {α : Type} (parse : String → Except Fault α) (toJson : α → Json)
    (make : String → String → α) (firsts seconds : List String) : Prop where
  parse_iff (s : String) (a : α) : parse s = .ok a ↔
    ∃ v x y, TreeText v s.toList ∧ WritesPair firsts seconds v x y ∧ a = make x y
  parse_compact (a : α) : parse (toJson a).compact = .ok a
  parse_pretty (a : α) : parse (toJson a).pretty = .ok a

def pairFields (firsts seconds : List String) : List Field :=
  [⟨firsts, .text, none⟩, ⟨seconds, .text, none⟩]

variable {firsts seconds : List String} {v : Reading} {ss : List String}

theorem requiredTexts_pairFields (firsts seconds : List String) :
    RequiredTexts (pairFields firsts seconds) := by
  intro f hf
  simp only [pairFields, List.mem_cons, List.not_mem_nil, or_false] at hf
  rcases hf with rfl | rfl <;> exact ⟨rfl, rfl⟩

theorem fieldIndex_pairFields (hdisjoint : ∀ k ∈ firsts, k ∉ seconds) (k : String) :
    (fieldIndex k (pairFields firsts seconds) = some 0 ↔ firsts.contains k = true) ∧
      (fieldIndex k (pairFields firsts seconds) = some 1 ↔ seconds.contains k = true) := by
  by_cases hfirst : k ∈ firsts
  · simp [fieldIndex, pairFields, List.findIdx?_cons, hfirst, hdisjoint k hfirst]
  · by_cases hsecond : k ∈ seconds <;>
      simp [fieldIndex, pairFields, List.findIdx?_cons, hfirst, hsecond]

theorem valuesFor_pairFields (hdisjoint : ∀ k ∈ firsts, k ∉ seconds)
    (ms : List (Option String × Reading)) :
    valuesFor (pairFields firsts seconds) 0 ms = valuesNamed firsts ms ∧
      valuesFor (pairFields firsts seconds) 1 ms = valuesNamed seconds ms := by
  constructor
  · refine congrArg (List.map _) (List.filter_congr fun m _ => ?_)
    cases m.1 with
    | none => rfl
    | some k => simp [(fieldIndex_pairFields hdisjoint k).1]
  · refine congrArg (List.map _) (List.filter_congr fun m _ => ?_)
    cases m.1 with
    | none => rfl
    | some k => simp [(fieldIndex_pairFields hdisjoint k).2]

theorem textTree_pairFields_iff (hdisjoint : ∀ k ∈ firsts, k ∉ seconds) :
    TextTree (pairFields firsts seconds) v ss ↔
      ∃ x y, WritesPair firsts seconds v x y ∧ ss = [x, y] := by
  constructor
  · intro h
    cases h with
    | @object ms ss hnames hlen h =>
      obtain ⟨x, y, rfl⟩ := List.length_eq_two.1 hlen
      obtain ⟨hfirst, hsecond⟩ := valuesFor_pairFields hdisjoint ms
      exact ⟨x, y, .object hnames (hfirst ▸ h 0 x rfl) (hsecond ▸ h 1 y rfl), rfl⟩
    | array hlen =>
      obtain ⟨x, y, rfl⟩ := List.length_eq_two.1 hlen
      exact ⟨x, y, .array x y, rfl⟩
  · rintro ⟨x, y, h, rfl⟩
    cases h with
    | @object ms x y hnames hx hy =>
      obtain ⟨hfirst, hsecond⟩ := valuesFor_pairFields hdisjoint ms
      refine .object hnames rfl fun i s hs => ?_
      match i, hs with
      | 0, rfl => exact hfirst.trans hx
      | 1, rfl => exact hsecond.trans hy
    | array x y =>
      have hlen : [x, y].length = (pairFields firsts seconds).length := rfl
      exact .array hlen

theorem numberFree_obj_strs (ps : List (String × String)) :
    NumberFree (.obj (ps.map fun p => (p.1, .str p.2))) := by
  refine .obj fun m hm => ?_
  obtain ⟨p, -, rfl⟩ := List.mem_map.1 hm
  exact .str p.2

theorem pairCodec_of {α : Type} {build : List Scalar → Option α} {toJson : α → Json}
    {make : String → String → α} (hdisjoint : ∀ k ∈ firsts, k ∉ seconds)
    (hbuild : ∀ x y, build [.text x, .text y] = some (make x y))
    (hprint : ∀ a, ∃ x y, a = make x y ∧ ∃ k ∈ firsts, ∃ l ∈ seconds,
      toJson a = .obj [(k, .str x), (l, .str y)]) :
    PairCodec (parseAs (pairFields firsts seconds) build) toJson make firsts seconds := by
  have hparse (s : String) (a : α) : parseAs (pairFields firsts seconds) build s = .ok a ↔
      ∃ v x y, TreeText v s.toList ∧ WritesPair firsts seconds v x y ∧ a = make x y := by
    rw [parseAs_eq_ok_iff (requiredTexts_pairFields firsts seconds)]
    simp only [textTree_pairFields_iff hdisjoint]
    constructor
    · rintro ⟨v, _, htext, ⟨x, y, hpair, rfl⟩, hmake⟩
      exact ⟨v, x, y, htext, hpair, Option.some.inj (hmake.symm.trans (hbuild x y))⟩
    · rintro ⟨v, x, y, htext, hpair, rfl⟩
      exact ⟨v, _, htext, ⟨x, y, hpair, rfl⟩, hbuild x y⟩
  have hwrites (a : α) : NumberFree (toJson a) ∧
      ∃ x y, WritesPair firsts seconds (toJson a).reading x y ∧ a = make x y := by
    obtain ⟨x, y, ha, k, hk, l, hl, heq⟩ := hprint a
    rw [heq]
    -- neither name belongs to the other text, so each text has one value
    have hkl : k ∉ seconds ∧ l ∉ firsts := ⟨hdisjoint k hk, fun h => hdisjoint l h hl⟩
    refine ⟨numberFree_obj_strs [(k, x), (l, y)], x, y, .object ?_ ?_ ?_, ha⟩
    · simp [memberReadings]
    · simp [memberReadings, valuesNamed, hk, hkl, reading]
    · simp [memberReadings, valuesNamed, hl, hkl, reading]
  refine ⟨hparse, fun a => ?_, fun a => ?_⟩
  · obtain ⟨hfree, x, y, hpair, ha⟩ := hwrites a
    exact (hparse _ a).2 ⟨_, x, y, treeText_compact hfree, hpair, ha⟩
  · obtain ⟨hfree, x, y, hpair, ha⟩ := hwrites a
    exact (hparse _ a).2 ⟨_, x, y, treeText_pretty hfree, hpair, ha⟩

end AccessControl.Json
