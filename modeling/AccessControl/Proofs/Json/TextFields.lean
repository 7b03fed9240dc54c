import AccessControl.Proofs.Json.DocumentText
import AccessControl.Proofs.Json.Fields
import Mathlib.Data.Set.List

/-!
# Records of texts

A record of required texts is read from an object in which each of its fields is given exactly once,
under whichever of its names, or from an array of as many texts as it has fields.
-/

namespace AccessControl.Json

def valuesFor (fields : List Field) (i : Nat) (ms : List (Option String × Reading)) :
    List Reading :=
  (ms.filter fun m => m.1.bind (fieldIndex · fields) = some i).map (·.2)

/-- Members whose names are text, of which those that belong to no field can be passed over. -/
def Passable (fields : List Field) (ms : List (Option String × Reading)) : Prop :=
  ∀ m ∈ ms, ∃ k, m.1 = some k ∧ (fieldIndex k fields = none → m.2.skipFault = none)

/-- A slot before and after the values of its field: one value goes into an empty slot. -/
inductive Field.Takes (f : Field) : List Reading → Option (Option Scalar) →
    Option (Option Scalar) → Prop
  | nothing (slot : Option (Option Scalar)) : Takes f [] slot slot
  | one {v : Reading} {x : Scalar} (h : f.kind.read v = .ok x) :
    Takes f [v] (some none) (some (some x))

variable {fields : List Field} {f : Field} {k : String} {v : Reading} {x : Scalar}
  {ms : List (Option String × Reading)} {slots slots' : List (Option Scalar)} {i : Nat}

theorem valuesFor_cons (fields : List Field) (i : Nat) (k : String) (v : Reading)
    (ms : List (Option String × Reading)) :
    valuesFor fields i ((some k, v) :: ms) =
      if fieldIndex k fields = some i then v :: valuesFor fields i ms
      else valuesFor fields i ms := by
  simp only [valuesFor, List.filter_cons, Option.bind_some, decide_eq_true_eq]
  split <;> rfl

theorem takes_cons_iff {vs : List Reading} {before after : Option (Option Scalar)} :
    f.Takes (v :: vs) before after ↔
      before = some none ∧ ∃ x, f.kind.read v = .ok x ∧ f.Takes vs (some (some x)) after := by
  constructor
  · intro h
    cases h with
    | one h => exact ⟨rfl, _, h, .nothing _⟩
  · rintro ⟨rfl, x, hx, h⟩
    cases h with
    | nothing => exact .one hx

theorem passable_cons_iff : Passable fields ((some k, v) :: ms) ↔
    (fieldIndex k fields = none → v.skipFault = none) ∧ Passable fields ms := by
  simp [Passable]

structure Places (fields : List Field) (ms : List (Option String × Reading))
    (slots slots' : List (Option Scalar)) : Prop where
  passable : Passable fields ms
  length : slots'.length = fields.length
  takes : ∀ (i : Nat) (f : Field), fields[i]? = some f →
    f.Takes (valuesFor fields i ms) slots[i]? slots'[i]?

theorem lt_of_fieldIndex (h : fieldIndex k fields = some i) : i < fields.length :=
  (List.findIdx?_eq_some_iff_getElem.1 h).1

theorem places_cons_of_unknown (hk : fieldIndex k fields = none) :
    Places fields ((some k, v) :: ms) slots slots' ↔
      v.skipFault = none ∧ Places fields ms slots slots' := by
  have hvalues (i : Nat) : valuesFor fields i ((some k, v) :: ms) = valuesFor fields i ms := by
    rw [valuesFor_cons, hk, if_neg (Option.some_ne_none i).symm]
  constructor
  · rintro ⟨hp, hlen, htakes⟩
    obtain ⟨hv, hp⟩ := passable_cons_iff.1 hp
    exact ⟨hv hk, hp, hlen, fun i f hf => hvalues i ▸ htakes i f hf⟩
  · rintro ⟨hv, hp, hlen, htakes⟩
    exact ⟨passable_cons_iff.2 ⟨fun _ => hv, hp⟩, hlen,
      fun i f hf => (hvalues i).symm ▸ htakes i f hf⟩

theorem places_cons_of_field (hk : fieldIndex k fields = some i) (hf : fields[i]? = some f)
    (hi : i < slots.length) :
    Places fields ((some k, v) :: ms) slots slots' ↔
      slots[i]? = some none ∧ ∃ x, f.kind.read v = .ok x ∧
        Places fields ms (slots.set i (some x)) slots' := by
  have hhere : valuesFor fields i ((some k, v) :: ms) = v :: valuesFor fields i ms := by
    rw [valuesFor_cons, if_pos hk]
  have hother {j : Nat} (hij : i ≠ j) :
      valuesFor fields j ((some k, v) :: ms) = valuesFor fields j ms := by
    rw [valuesFor_cons, hk, if_neg fun h => hij (Option.some.inj h)]
  constructor
  · rintro ⟨hp, hlen, htakes⟩
    have htake := htakes i f hf
    rw [hhere, takes_cons_iff] at htake
    obtain ⟨hslot, x, hx, htake⟩ := htake
    refine ⟨hslot, x, hx, (passable_cons_iff.1 hp).2, hlen, fun j g hg => ?_⟩
    by_cases hij : i = j
    · subst hij
      cases hf.symm.trans hg
      rwa [List.getElem?_set_self hi]
    · rw [List.getElem?_set_ne hij, ← hother hij]
      exact htakes j g hg
  · rintro ⟨hslot, x, hx, hp, hlen, htakes⟩
    refine ⟨passable_cons_iff.2 ⟨fun h => ?_, hp⟩, hlen, fun j g hg => ?_⟩
    · rw [hk] at h
      cases h
    · have htake := htakes j g hg
      by_cases hij : i = j
      · subst hij
        cases hf.symm.trans hg
        rw [List.getElem?_set_self hi] at htake
        rw [hhere, takes_cons_iff]
        exact ⟨hslot, x, hx, htake⟩
      · rw [List.getElem?_set_ne hij] at htake
        rwa [hother hij]

theorem readMembers_iff_places (hlen : slots.length = fields.length) :
    readMembers fields slots ms = .ok slots' ↔ Places fields ms slots slots' := by
  induction ms generalizing slots with
  | nil =>
    rw [readMembers, Except.ok.injEq]
    constructor
    · rintro rfl
      exact ⟨fun m hm => absurd hm List.not_mem_nil, hlen, fun i f hf => .nothing _⟩
    · intro h
      refine List.ext_getElem? fun i => ?_
      cases hf : fields[i]? with
      | some f =>
        have htakes := h.takes i f hf
        generalize slots[i]? = before at htakes ⊢
        generalize slots'[i]? = after at htakes ⊢
        cases htakes
        rfl
      | none =>
        have hi := List.getElem?_eq_none_iff.1 hf
        rw [List.getElem?_eq_none (hlen ▸ hi), List.getElem?_eq_none (h.length ▸ hi)]
  | cons m ms ih =>
    obtain ⟨_ | k, v⟩ := m
    · refine iff_of_false (fun h => by cases h) fun h => ?_
      obtain ⟨k, hk, -⟩ := h.passable _ List.mem_cons_self
      cases hk
    · rw [readMembers]
      cases hk : fieldIndex k fields with
      | none =>
        rw [places_cons_of_unknown hk, ← ih hlen]
        cases hskip : v.skipFault <;> simp
      | some i =>
        have hi := lt_of_fieldIndex hk
        have hi' : i < slots.length := hlen ▸ hi
        obtain ⟨f, hf⟩ : ∃ f, fields[i]? = some f := ⟨_, List.getElem?_eq_getElem hi⟩
        obtain ⟨slot, hslot⟩ : ∃ slot, slots[i]? = some slot := ⟨_, List.getElem?_eq_getElem hi'⟩
        have hstep {x : Scalar} : readMembers fields (slots.set i (some x)) ms = .ok slots' ↔
            Places fields ms (slots.set i (some x)) slots' := ih (by rw [List.length_set, hlen])
        rw [places_cons_of_field hk hf hi']
        simp only [hf, hslot]
        cases slot with
        | some y => simp
        | none => cases hread : f.kind.read v <;> simp [hread, hstep]

def RequiredTexts (fields : List Field) : Prop := ∀ f ∈ fields, f.kind = .text ∧ f.default? = none

theorem read_text_eq_ok_iff : Kind.read .text v = .ok x ↔ ∃ s, v = .str s ∧ x = .text s := by
  cases v <;> simp [Kind.read, eq_comm]

variable {xs : List Scalar} {vs : List Reading}

theorem readRecord_eq_ok_iff_places (surplus : Option Fault) :
    readRecord surplus fields (.obj ms none) = .ok xs ↔
      ∃ slots, Places fields ms (fields.map fun _ => none) slots ∧
        fillDefaults fields slots = .ok xs := by
  simp only [readRecord, ← readMembers_iff_places (List.length_map _)]
  cases readMembers fields (fields.map fun _ => none) ms <;> simp

theorem RequiredTexts.getElem? (h : RequiredTexts fields) (hf : fields[i]? = some f) :
    f.kind = .text ∧ f.default? = none ∧
      (fields.map fun _ => (none : Option Scalar))[i]? = some none := by
  obtain ⟨hkind, hdefault⟩ := h f (List.mem_of_getElem? hf)
  exact ⟨hkind, hdefault, by rw [List.getElem?_map, hf, Option.map_some]⟩

theorem readRecord_obj_iff (h : RequiredTexts fields) (surplus : Option Fault) :
    readRecord surplus fields (.obj ms none) = .ok xs ↔
      Passable fields ms ∧ xs.length = fields.length ∧
        ∀ i, i < fields.length →
          ∃ s, valuesFor fields i ms = [.str s] ∧ xs[i]? = some (.text s) := by
  rw [readRecord_eq_ok_iff_places]
  simp only [fillDefaults_eq_ok_iff]
  constructor
  · rintro ⟨slots, hplaces, hlen, hxs⟩
    refine ⟨hplaces.passable, hlen, fun i hi => ?_⟩
    obtain ⟨f, hf⟩ : ∃ f, fields[i]? = some f := ⟨_, List.getElem?_eq_getElem hi⟩
    obtain ⟨hkind, hdefault, hempty⟩ := h.getElem? hf
    have htakes := hplaces.takes i f hf
    have hx := hxs i f hf
    have hsome : xs[i]? ≠ none := by simpa using hlen ▸ hi
    rw [hempty] at htakes
    rw [hdefault] at hx
    generalize valuesFor fields i ms = vs at htakes ⊢
    generalize slots[i]? = slot at htakes hx
    cases htakes with
    | nothing => exact absurd hx hsome
    | one hread =>
      rw [hkind, read_text_eq_ok_iff] at hread
      obtain ⟨s, rfl, rfl⟩ := hread
      exact ⟨s, rfl, hx⟩
  · rintro ⟨hpass, hlen, hgiven⟩
    refine ⟨xs.map some, ⟨hpass, by rw [List.length_map, hlen], fun i f hf => ?_⟩, hlen,
      fun i f hf => ?_⟩
    · obtain ⟨hkind, -, hempty⟩ := h.getElem? hf
      obtain ⟨s, hs, hx⟩ := hgiven i (List.getElem?_eq_some_iff.1 hf).1
      rw [hs, hempty, List.getElem?_map, hx]
      exact .one (by rw [hkind]; rfl)
    · obtain ⟨-, hdefault, -⟩ := h.getElem? hf
      obtain ⟨s, -, hx⟩ := hgiven i (List.getElem?_eq_some_iff.1 hf).1
      rw [List.getElem?_map, hx, hdefault]
      rfl

theorem readItems_eq_ok_iff (h : RequiredTexts fields) {left : List Reading} :
    readItems fields vs none = .ok (xs, left) ↔
      ∃ ss : List String, vs = ss.map .str ++ left ∧ xs = ss.map .text ∧
        ss.length = fields.length := by
  induction fields generalizing vs xs with
  | nil =>
    rw [readItems]
    constructor
    · rintro ⟨⟩
      exact ⟨[], rfl, rfl, rfl⟩
    · rintro ⟨ss, rfl, rfl, hlen⟩
      obtain rfl := List.eq_nil_of_length_eq_zero hlen
      rfl
  | cons f fields ih =>
    obtain ⟨hkind, hdefault⟩ := h f List.mem_cons_self
    have hrest {vs : List Reading} {xs : List Scalar} :
        readItems fields vs none = .ok (xs, left) ↔ ∃ ss : List String,
          vs = ss.map .str ++ left ∧ xs = ss.map .text ∧ ss.length = fields.length :=
      ih fun g hg => h g (List.mem_cons_of_mem _ hg)
    cases vs with
    | nil =>
      simp only [readItems, hdefault]
      refine iff_of_false nofun ?_
      rintro ⟨ss, heq, -, hlen⟩
      cases ss <;> simp at heq hlen
    | cons v vs =>
      simp only [readItems, hkind]
      constructor
      · intro hread
        split at hread
        · cases hread
        · rename_i x hx
          split at hread <;> cases hread
          rename_i hitems
          obtain ⟨s, rfl, rfl⟩ := read_text_eq_ok_iff.1 hx
          obtain ⟨ss, rfl, rfl, hlen⟩ := hrest.1 hitems
          exact ⟨s :: ss, rfl, rfl, congrArg (· + 1) hlen⟩
      · rintro ⟨_ | ⟨s, ss⟩, heq, rfl, hlen⟩
        · cases hlen
        · obtain ⟨rfl, hvs⟩ := List.cons.inj heq
          have hitems := hrest.2 ⟨ss, hvs, rfl, Nat.succ.inj hlen⟩
          simp only [Kind.read, hitems, List.map_cons]

theorem readRecord_arr_iff (h : RequiredTexts fields) (surplus : Fault) :
    readRecord (some surplus) fields (.arr vs none) = .ok xs ↔
      ∃ ss : List String, vs = ss.map .str ∧ xs = ss.map .text ∧ ss.length = fields.length := by
  have hitems : readItems fields vs none = .ok (xs, []) ↔ _ := readItems_eq_ok_iff h
  simp only [List.append_nil] at hitems
  rw [← hitems, readRecord]
  cases readItems fields vs none with
  | error f => simp
  | ok p =>
    obtain ⟨ys, left⟩ := p
    cases left <;> simp

def given (fields : List Field) (i : Nat) (ms : List (String × Json)) : List Json :=
  (ms.filter fun m => fieldIndex m.1 fields = some i).map (·.2)

theorem valuesFor_memberReadings (fields : List Field) (i : Nat) (ms : List (String × Json)) :
    valuesFor fields i (memberReadings ms) = (given fields i ms).map reading := by
  induction ms with
  | nil => rfl
  | cons m ms ih =>
    rw [memberReadings, valuesFor_cons, ih]
    simp only [given, List.filter_cons, decide_eq_true_eq]
    split <;> rfl

theorem passable_memberReadings (fields : List Field) (ms : List (String × Json)) :
    Passable fields (memberReadings ms) := by
  intro m hm
  rw [memberReadings_eq_map] at hm
  obtain ⟨n, -, rfl⟩ := List.mem_map.1 hm
  exact ⟨n.1, rfl, fun _ => skipFault_reading n.2⟩

theorem map_reading_eq_str_iff {js : List Json} {s : String} :
    js.map reading = [.str s] ↔ js = [.str s] :=
  (List.map_injective_iff.2 fun _ _ => reading_injective).eq_iff (b := [.str s])

theorem readings_eq_strs_iff {js : List Json} {ss : List String} :
    readings js = ss.map .str ↔ js = ss.map .str := by
  have hstrs : (ss.map Json.str).map reading = ss.map .str := by
    rw [List.map_map]
    rfl
  rw [readings_eq_map, ← hstrs]
  exact (List.map_injective_iff.2 fun _ _ => reading_injective).eq_iff

/-- The values that are a record of texts. -/
inductive TextRecord (fields : List Field) : Json → List String → Prop
  | object {ms : List (String × Json)} {ss : List String} (hlen : ss.length = fields.length)
      (h : ∀ (i : Nat) (s : String), ss[i]? = some s → given fields i ms = [.str s]) :
    TextRecord fields (.obj ms) ss
  | array {ss : List String} (hlen : ss.length = fields.length) :
    TextRecord fields (.arr (ss.map .str)) ss

theorem exists_texts (h : ∀ x ∈ xs, ∃ s, Scalar.text s = x) :
    ∃ ss : List String, ss.map .text = xs := by
  have hxs : xs ∈ {l | ∀ x ∈ l, x ∈ Set.range Scalar.text} := h
  rwa [← Set.range_list_map] at hxs

inductive TextTree (fields : List Field) : Reading → List String → Prop
  | object {ms : List (Option String × Reading)} {ss : List String}
      (hnames : ∀ m ∈ ms, m.1.isSome = true) (hlen : ss.length = fields.length)
      (h : ∀ (i : Nat) (s : String), ss[i]? = some s → valuesFor fields i ms = [.str s]) :
    TextTree fields (.obj ms none) ss
  | array {ss : List String} (hlen : ss.length = fields.length) :
    TextTree fields (.arr (ss.map .str) none) ss

variable {ss : List String}

theorem textTree_reading_iff {j : Json} :
    TextTree fields j.reading ss ↔ TextRecord fields j ss := by
  cases j with
  | obj ms =>
    have hvalues (i : Nat) (s : String) :
        valuesFor fields i (memberReadings ms) = [.str s] ↔ given fields i ms = [.str s] := by
      rw [valuesFor_memberReadings, map_reading_eq_str_iff]
    constructor
    · rintro ⟨-, hlen, h⟩
      exact .object hlen fun i s hs => (hvalues i s).1 (h i s hs)
    · rintro ⟨hlen, h⟩
      refine .object (fun m hm => ?_) hlen fun i s hs => (hvalues i s).2 (h i s hs)
      obtain ⟨k, hk, -⟩ := passable_memberReadings fields ms m hm
      rw [hk, Option.isSome_some]
  | arr js =>
    constructor
    · intro h
      generalize hv : (Json.arr js).reading = v at h
      cases h with
      | object => cases hv
      | array hlen =>
        rw [reading, Reading.arr.injEq] at hv
        rw [readings_eq_strs_iff.1 hv.1]
        exact .array hlen
    · rintro ⟨⟩
      rename_i hlen
      rw [reading, readings_eq_strs_iff.2 rfl]
      exact .array hlen
  | _ => exact iff_of_false nofun nofun

theorem passable_iff (hms : ∀ m ∈ ms, m.2.skipFault = none) :
    Passable fields ms ↔ ∀ m ∈ ms, m.1.isSome = true := by
  refine forall₂_congr fun m hm => ?_
  rw [Option.isSome_iff_exists]
  exact exists_congr fun k => and_iff_left fun _ => hms m hm

theorem readRecord_textTree_iff (h : RequiredTexts fields) (surplus : Fault)
    (hv : v.skipFault = none) :
    readRecord (some surplus) fields v = .ok xs ↔
      ∃ ss, TextTree fields v ss ∧ xs = ss.map .text := by
  cases v with
  | obj ms stop =>
    obtain ⟨hms, rfl⟩ := Reading.skipFault_obj_eq_none_iff.1 hv
    rw [readRecord_obj_iff h, passable_iff hms]
    constructor
    · rintro ⟨hnames, hlen, hgiven⟩
      obtain ⟨ss, rfl⟩ : ∃ ss : List String, ss.map .text = xs := by
        refine exists_texts fun x hx => ?_
        obtain ⟨i, hi, rfl⟩ := List.mem_iff_getElem.1 hx
        obtain ⟨s, -, hs⟩ := hgiven i (hlen ▸ hi)
        exact ⟨s, Option.some.inj (hs.symm.trans (List.getElem?_eq_getElem hi))⟩
      refine ⟨ss, .object hnames (by simpa using hlen) fun i s hs => ?_, rfl⟩
      obtain ⟨hi, -⟩ := List.getElem?_eq_some_iff.1 hs
      obtain ⟨t, ht, hx⟩ := hgiven i (by rw [← hlen, List.length_map]; exact hi)
      rw [List.getElem?_map, hs] at hx
      cases hx
      exact ht
    · rintro ⟨ss, ⟨hnames, hlen, hss⟩, rfl⟩
      refine ⟨hnames, by rw [List.length_map, hlen], fun i hi => ?_⟩
      have hs := List.getElem?_eq_getElem (hlen.symm ▸ hi)
      exact ⟨_, hss i _ hs, by rw [List.getElem?_map, hs, Option.map_some]⟩
  | arr vs stop =>
    obtain ⟨-, rfl⟩ := Reading.skipFault_arr_eq_none_iff.1 hv
    rw [readRecord_arr_iff h]
    constructor
    · rintro ⟨ss, rfl, rfl, hlen⟩
      exact ⟨ss, .array hlen, rfl⟩
    · rintro ⟨ss, ⟨⟩, rfl⟩
      rename_i hlen
      exact ⟨ss, rfl, rfl, hlen⟩
  | _ =>
    refine iff_of_false nofun ?_
    rintro ⟨ss, ⟨⟩, -⟩

theorem readRecord_reading_iff (h : RequiredTexts fields) (surplus : Fault) {j : Json} :
    readRecord (some surplus) fields j.reading = .ok xs ↔
      ∃ ss, TextRecord fields j ss ∧ xs = ss.map .text := by
  simp only [readRecord_textTree_iff h surplus (skipFault_reading j), textTree_reading_iff]

theorem skipFault_of_readRecord (h : RequiredTexts fields) {surplus : Fault}
    (hr : readRecord (some surplus) fields v = .ok xs) : v.skipFault = none := by
  cases v with
  | obj ms stop =>
    cases stop with
    | some s =>
      simp only [readRecord] at hr
      split at hr <;> cases hr
    | none =>
      obtain ⟨hpass, -, hgiven⟩ := (readRecord_obj_iff h _).1 hr
      refine Reading.skipFault_obj_eq_none_iff.2 ⟨fun m hm => ?_, rfl⟩
      obtain ⟨k, hk, hskip⟩ := hpass m hm
      cases hi : fieldIndex k fields with
      | none => exact hskip hi
      | some i =>
        -- the value of a field is among those that were read as texts
        obtain ⟨s, hs, -⟩ := hgiven i (lt_of_fieldIndex hi)
        have hvalue : m.2 ∈ valuesFor fields i ms :=
          List.mem_map.2 ⟨m, List.mem_filter.2 ⟨hm, by simp [hk, hi]⟩, rfl⟩
        rw [hs, List.mem_singleton] at hvalue
        rw [hvalue]
        rfl
  | arr vs stop =>
    cases stop with
    | some s =>
      simp only [readRecord] at hr
      split at hr
      · cases hr
      · rename_i scalars left _
        cases left <;> cases hr
    | none =>
      obtain ⟨ss, rfl, -, -⟩ := (readRecord_arr_iff h surplus).1 hr
      refine Reading.skipFault_arr_eq_none_iff.2 ⟨fun v hv => ?_, rfl⟩
      obtain ⟨s, -, rfl⟩ := List.mem_map.1 hv
      rfl
  | hole f g => cases hr
  | _ => rfl

/-- A text is parsed as a record of texts exactly if it spells a tree that is one. -/
theorem parseAs_eq_ok_iff {α : Type} {build : List Scalar → Option α} {s : String} {a : α}
    (h : RequiredTexts fields) :
    parseAs fields build s = .ok a ↔
      ∃ v ss, TreeText v s.toList ∧ TextTree fields v ss ∧ build (ss.map .text) = some a := by
  have hread {v : Reading} : readAs (some .malformed) fields build v = .ok a ↔
      ∃ xs, readRecord (some .malformed) fields v = .ok xs ∧ build xs = some a := by
    simp only [readAs]
    cases readRecord (some .malformed) fields v with
    | error f => simp
    | ok xs => cases hb : build xs <;> simp [hb]
  simp only [parseAs]
  constructor
  · intro hp
    split at hp
    · cases hp
    · rename_i b hb
      split at hp <;> cases hp
      rename_i htail
      obtain ⟨xs, hxs, hbuild⟩ := hread.1 hb
      have hskip := skipFault_of_readRecord h hxs
      obtain ⟨ss, hss, rfl⟩ := (readRecord_textTree_iff h _ hskip).1 hxs
      exact ⟨_, ss, treeText_of_ofText hskip (by rw [← htail]), hss, hbuild⟩
  · rintro ⟨v, ss, htext, hss, hbuild⟩
    have hxs := (readRecord_textTree_iff h .malformed htext.skipFault).2 ⟨ss, hss, rfl⟩
    rw [ofText_of_treeText htext]
    simp only [hread.2 ⟨_, hxs, hbuild⟩]

end AccessControl.Json
