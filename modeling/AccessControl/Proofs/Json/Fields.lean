import AccessControl.Proofs.Json.Skipping
import AccessControl.Proofs.Settings.Tidy
import AccessControl.Settings.Basic
import Mathlib.Data.List.Forall2

/-!
# Records field by field

An object that names no member twice is read as a record field by field: each field is what the
member of its name holds, or its default where there is no such member. No other member counts.
-/

namespace AccessControl.Json

def Field.name (f : Field) : String := f.names.headD ""

/-- Whether a field comes to a scalar, given the member of its name if there is one. -/
def Field.Decodes (f : Field) (o : Option Json) (x : Scalar) : Prop :=
  match o with
  | some v => f.kind.read v.reading = .ok x
  | none => f.default? = some x

/-- Fields that go by one name each, no two by the same. -/
structure Separate (fields : List Field) : Prop where
  names : ∀ f ∈ fields, f.names = [f.name]
  nodup : (fields.map Field.name).Nodup

variable {fields : List Field} {f : Field} {ms : List (String × Json)} {name : String} {v : Json}
  {i : Nat}

theorem Separate.eq_of_name {j : Nat} {g : Field} (h : Separate fields) (hf : fields[i]? = some f)
    (hg : fields[j]? = some g) (hname : f.name = g.name) : i = j ∧ f = g := by
  obtain ⟨hi, -⟩ := List.getElem?_eq_some_iff.1 hf
  have hmap : (fields.map Field.name)[i]? = (fields.map Field.name)[j]? := by
    rw [List.getElem?_map, List.getElem?_map, hf, hg, Option.map_some, Option.map_some, hname]
  obtain rfl := (List.getElem?_inj (by simpa using hi) h.nodup).1 hmap
  exact ⟨rfl, Option.some.inj (hf.symm.trans hg)⟩

theorem Separate.fieldIndex_eq_some (h : Separate fields) (hi : fieldIndex name fields = some i) :
    ∃ f, fields[i]? = some f ∧ f.name = name := by
  obtain ⟨hlt, hcontains, -⟩ := List.findIdx?_eq_some_iff_getElem.1 hi
  refine ⟨fields[i], List.getElem?_eq_getElem hlt, ?_⟩
  rw [h.names _ (List.getElem_mem hlt), List.contains_iff_mem, List.mem_singleton] at hcontains
  exact hcontains.symm

theorem Separate.fieldIndex_eq_none (h : Separate fields) (hi : fieldIndex name fields = none)
    (hf : fields[i]? = some f) : f.name ≠ name := by
  have hmem := List.mem_of_getElem? hf
  have hno := List.findIdx?_eq_none_iff.1 hi f hmem
  rw [h.names f hmem] at hno
  rintro rfl
  simp at hno

def Field.Fills (f : Field) (o : Option Json) (before after : Option (Option Scalar)) : Prop :=
  match o with
  | some v => ∃ x, f.kind.read v.reading = .ok x ∧ after = some (some x)
  | none => after = before

structure Filled (fields : List Field) (ms : List (String × Json))
    (slots slots' : List (Option Scalar)) : Prop where
  length : slots'.length = fields.length
  slot : ∀ (i : Nat) (f : Field), fields[i]? = some f →
    f.Fills (member? f.name ms) slots[i]? slots'[i]?

variable {ms' : List (String × Json)} {slots slots' slots₁ slots₂ : List (Option Scalar)}

theorem filled_congr (h : ∀ (i : Nat) (f : Field), fields[i]? = some f →
      (f.Fills (member? f.name ms) slots₁[i]? slots'[i]? ↔
        f.Fills (member? f.name ms') slots₂[i]? slots'[i]?)) :
    Filled fields ms slots₁ slots' ↔ Filled fields ms' slots₂ slots' :=
  ⟨fun hf => ⟨hf.length, fun i f hi => (h i f hi).1 (hf.slot i f hi)⟩,
    fun hf => ⟨hf.length, fun i f hi => (h i f hi).2 (hf.slot i f hi)⟩⟩

theorem filled_nil (hlen : slots.length = fields.length) :
    Filled fields [] slots slots' ↔ slots = slots' := by
  constructor
  · intro h
    refine List.ext_getElem? fun i => ?_
    cases hf : fields[i]? with
    | some f => exact (h.slot i f hf).symm
    | none =>
      have hi := List.getElem?_eq_none_iff.1 hf
      rw [List.getElem?_eq_none (hlen ▸ hi), List.getElem?_eq_none (h.length ▸ hi)]
  · rintro rfl
    exact ⟨hlen, fun _ _ _ => rfl⟩

theorem filled_cons_of_unknown (h : Separate fields) (hi : fieldIndex name fields = none) :
    Filled fields ((name, v) :: ms) slots slots' ↔ Filled fields ms slots slots' := by
  refine filled_congr fun i f hf => ?_
  have hother : member? f.name ((name, v) :: ms) = member? f.name ms :=
    if_neg (h.fieldIndex_eq_none hi hf).symm
  rw [hother]

theorem filled_cons_of_field (h : Separate fields) (hf : fields[i]? = some f) {x : Scalar}
    (hread : f.kind.read v.reading = .ok x) (hi : i < slots.length)
    (hms : f.name ∉ ms.map (·.1)) :
    Filled fields ((f.name, v) :: ms) slots slots' ↔
      Filled fields ms (slots.set i (some x)) slots' := by
  refine filled_congr fun j g hg => ?_
  by_cases hij : i = j
  · subst hij
    cases hf.symm.trans hg
    have hgone : member? f.name ms = none := member?_eq_none_iff.2 hms
    have hhere : member? f.name ((f.name, v) :: ms) = some v := if_pos rfl
    simp only [Field.Fills, hgone, hhere, hread, List.getElem?_set_self hi, Except.ok.injEq,
      exists_eq_left']
  · have hother : member? g.name ((f.name, v) :: ms) = member? g.name ms :=
      if_neg fun hname => hij (h.eq_of_name hf hg hname).1
    rw [hother, List.getElem?_set_ne hij]

theorem readMembers_eq_ok_iff (h : Separate fields) (hms : (ms.map (·.1)).Nodup)
    (hlen : slots.length = fields.length)
    (hfree : ∀ (i : Nat) (f : Field), fields[i]? = some f → f.name ∈ ms.map (·.1) →
      slots[i]? = some none) :
    readMembers fields slots (memberReadings ms) = .ok slots' ↔ Filled fields ms slots slots' := by
  induction ms generalizing slots with
  | nil => rw [memberReadings, readMembers, filled_nil hlen, Except.ok.injEq]
  | cons m ms ih =>
    obtain ⟨k, v⟩ := m
    obtain ⟨hk, hnodup⟩ := List.nodup_cons.1 hms
    rw [memberReadings, readMembers]
    cases hi : fieldIndex k fields with
    | none =>
      rw [filled_cons_of_unknown h hi, ← ih hnodup hlen fun i f hf hm =>
        hfree i f hf (List.mem_cons_of_mem _ hm)]
      simp only [skipFault_reading]
    | some i =>
      -- the slot is still free, so the value is read; no later member is of this name
      obtain ⟨f, hf, rfl⟩ := h.fieldIndex_eq_some hi
      have hslot := hfree i f hf List.mem_cons_self
      obtain ⟨hlt, -⟩ := List.getElem?_eq_some_iff.1 hslot
      simp only [hslot, hf]
      cases hread : f.kind.read v.reading with
      | error e =>
        refine iff_of_false nofun fun hfill => ?_
        have hbad := hfill.slot i f hf
        rw [show member? f.name ((f.name, v) :: ms) = some v from if_pos rfl] at hbad
        obtain ⟨x, hx, -⟩ := hbad
        cases hread.symm.trans hx
      | ok x =>
        rw [filled_cons_of_field h hf hread hlt hk]
        refine ih hnodup (by rwa [List.length_set]) fun j g hg hm => ?_
        have hne : i ≠ j := by
          rintro rfl
          cases hf.symm.trans hg
          exact hk hm
        rw [List.getElem?_set_ne hne]
        exact hfree j g hg (List.mem_cons_of_mem _ hm)

variable {xs : List Scalar}

theorem fillDefaults_ne_nil : fillDefaults (f :: fields) slots ≠ .ok [] := by
  rw [fillDefaults]
  cases (slots.head?.getD none).or f.default? with
  | none => nofun
  | some x => cases fillDefaults fields slots.tail <;> nofun

theorem fillDefaults_cons_iff {x : Scalar} : fillDefaults (f :: fields) slots = .ok (x :: xs) ↔
    (slots.head?.getD none).or f.default? = some x ∧
      fillDefaults fields slots.tail = .ok xs := by
  rw [fillDefaults]
  cases (slots.head?.getD none).or f.default? with
  | none => simp
  | some y => cases fillDefaults fields slots.tail <;> simp

theorem fillDefaults_eq_ok_iff : fillDefaults fields slots = .ok xs ↔
    xs.length = fields.length ∧ ∀ (i : Nat) (f : Field), fields[i]? = some f →
      xs[i]? = (slots[i]?.getD none).or f.default? := by
  induction fields generalizing slots xs with
  | nil =>
    rw [fillDefaults, Except.ok.injEq, List.length_nil, List.length_eq_zero_iff]
    exact ⟨fun hx => ⟨hx.symm, nofun⟩, fun hx => hx.1.symm⟩
  | cons f fields ih =>
    cases xs with
    | nil => exact iff_of_false fillDefaults_ne_nil fun hx => nomatch hx.1
    | cons x xs =>
      rw [fillDefaults_cons_iff, ih, List.head?_eq_getElem?]
      simp only [List.getElem?_tail]
      constructor
      · rintro ⟨hslot, hlen, hall⟩
        refine ⟨congrArg (· + 1) hlen, fun i g hg => ?_⟩
        cases i with
        | zero =>
          cases hg
          exact hslot.symm
        | succ i => exact hall i g hg
      · rintro ⟨hlen, hall⟩
        exact ⟨(hall 0 f rfl).symm, Nat.succ.inj hlen, fun i g hg => hall (i + 1) g hg⟩

theorem Filled.decodes (h : Filled fields ms (fields.map fun _ => none) slots)
    (hx : ∀ (i : Nat) (f : Field), fields[i]? = some f →
      xs[i]? = (slots[i]?.getD none).or f.default?) (hf : fields[i]? = some f) {x : Scalar}
    (hi : xs[i]? = some x) : f.Decodes (member? f.name ms) x := by
  have hslot := h.slot i f hf
  rw [List.getElem?_map, hf, Option.map_some] at hslot
  rw [hx i f hf] at hi
  cases hm : member? f.name ms with
  | none =>
    rw [hm] at hslot
    rw [show slots[i]? = some none from hslot] at hi
    exact hi
  | some v =>
    rw [hm] at hslot
    obtain ⟨y, hy, hslot⟩ := hslot
    rw [hslot] at hi
    cases hi
    exact hy

theorem filled_of_decodes
    (h : List.Forall₂ (fun f x => f.Decodes (member? f.name ms) x) fields xs) :
    ∃ slots, Filled fields ms (fields.map fun _ => none) slots ∧
      fillDefaults fields slots = .ok xs := by
  refine ⟨List.zipWith (fun f x => (member? f.name ms).map fun _ => x) fields xs, ⟨?_, ?_⟩, ?_⟩
  · rw [List.length_zipWith, h.length_eq, Nat.min_self]
  · intro i f hf
    obtain ⟨hi, rfl⟩ := List.getElem?_eq_some_iff.1 hf
    have hi' : i < xs.length := h.length_eq ▸ hi
    have hd : fields[i].Decodes (member? fields[i].name ms) xs[i] :=
      (List.forall₂_iff_get.1 h).2 i hi hi'
    rw [List.getElem?_zipWith, List.getElem?_map, hf, List.getElem?_eq_getElem hi']
    dsimp only
    cases hm : member? fields[i].name ms with
    | none => rfl
    | some v =>
      rw [hm] at hd
      exact ⟨xs[i], hd, rfl⟩
  · induction h with
    | nil => rfl
    | @cons f x fields xs hd hds ih =>
      refine fillDefaults_cons_iff.2 ⟨?_, ih⟩
      rw [List.zipWith_cons_cons, List.head?_cons, Option.getD_some]
      cases hm : member? f.name ms with
      | none =>
        rw [hm] at hd
        exact hd
      | some v => rfl

theorem readRecord_eq_ok_iff (h : Separate fields) (hms : (ms.map (·.1)).Nodup) :
    readRecord none fields (reading (.obj ms)) = .ok xs ↔
      List.Forall₂ (fun f x => f.Decodes (member? f.name ms) x) fields xs := by
  have hread (slots : List (Option Scalar)) :
      readMembers fields (fields.map fun _ => none) (memberReadings ms) = .ok slots ↔
        Filled fields ms (fields.map fun _ => none) slots :=
    readMembers_eq_ok_iff h hms (List.length_map _) fun i f hf _ => by
      rw [List.getElem?_map, hf, Option.map_some]
  rw [reading, readRecord]
  constructor
  · intro hr
    split at hr
    · cases hr
    · rename_i slots hslots
      obtain ⟨hlen, hx⟩ := fillDefaults_eq_ok_iff.1 hr
      have hfilled := (hread slots).1 hslots
      refine List.forall₂_iff_get.2 ⟨hlen.symm, fun i hi hi' => ?_⟩
      exact hfilled.decodes hx (List.getElem?_eq_getElem hi) (List.getElem?_eq_getElem hi')
  · intro hd
    obtain ⟨slots, hfilled, hfill⟩ := filled_of_decodes hd
    rw [(hread slots).2 hfilled]
    exact hfill

theorem read_obj (k : Kind) (ms : List (String × Json)) :
    k.read (reading (.obj ms)) = .error .mismatch := by
  cases k <;> rfl

theorem record?_obj_eq_some_iff {α : Type} {build : List Scalar → Option α} {a : α}
    (h : Separate fields) (hms : (ms.map (·.1)).Nodup) :
    Settings.record? fields build (.obj ms) = some a ↔
      ∃ xs, List.Forall₂ (fun f x => f.Decodes (member? f.name ms) x) fields xs ∧
        build xs = some a := by
  simp only [← readRecord_eq_ok_iff h hms, Settings.record?, readAs]
  cases readRecord none fields (reading (.obj ms)) with
  | error f => simp [Except.toOption]
  | ok xs => cases hb : build xs <;> simp [Except.toOption, hb]

end AccessControl.Json
