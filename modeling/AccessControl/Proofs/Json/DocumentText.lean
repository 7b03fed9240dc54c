import AccessControl.Proofs.Json.Skipping

/-!
# Documents

A text is one JSON document exactly if a value is spelled in it, with blanks before and after it,
and its containers nest no deeper than the limit.
-/

namespace AccessControl.Json

open Reading

mutual
def depth : Json → Nat
  | .arr items => depths items + 1
  | .obj members => memberDepths members + 1
  | _ => 0

def depths : List Json → Nat
  | [] => 0
  | v :: vs => max (depth v) (depths vs)

def memberDepths : List (String × Json) → Nat
  | [] => 0
  | (_, v) :: ms => max (depth v) (memberDepths ms)
end

/-- The texts that spell a tree, with blanks before and after it. -/
def TreeText (v : Reading) (cs : List Char) : Prop :=
  ∃ before text after, cs = before ++ (text ++ after) ∧ Blanks before ∧ Spelled v text ∧
    Blanks after

/-- The texts of a document that holds a value. -/
def DocumentText (j : Json) (cs : List Char) : Prop :=
  ∃ before text after, cs = before ++ (text ++ after) ∧ Blanks before ∧
    Spelled j.reading text ∧ Blanks after ∧ j.depth ≤ depthLimit

theorem readings_eq_map (vs : List Json) : readings vs = vs.map reading := by
  induction vs with
  | nil => rfl
  | cons v vs ih => rw [readings, ih, List.map_cons]

theorem memberReadings_eq_map (ms : List (String × Json)) :
    memberReadings ms = ms.map fun m => (some m.1, m.2.reading) := by
  induction ms with
  | nil => rfl
  | cons m ms ih => rw [memberReadings, ih, List.map_cons]

mutual
theorem reading_of_value? : ∀ (v : Reading) {d : Nat} {j : Json},
    v.value? d = .ok j → v = j.reading ∧ j.depth ≤ d
  | .null, d, j, h => by
    cases h
    exact ⟨rfl, Nat.zero_le _⟩
  | .bool b, d, j, h => by
    cases h
    exact ⟨rfl, Nat.zero_le _⟩
  | .int n, d, j, h => by
    cases h
    exact ⟨rfl, Nat.zero_le _⟩
  | .float x, d, j, h => by
    cases h
    exact ⟨rfl, Nat.zero_le _⟩
  | .str s, d, j, h => by
    cases h
    exact ⟨rfl, Nat.zero_le _⟩
  | .hole f g, d, j, h => by cases h
  | .arr vs stop, 0, j, h => by cases h
  | .arr vs stop, d + 1, j, h => by
    simp only [Reading.value?] at h
    split at h
    · cases h
    · rename_i js hjs
      obtain ⟨rfl, hdepth⟩ := readings_of_values? vs hjs
      split at h <;> cases h
      exact ⟨rfl, Nat.succ_le_succ hdepth⟩
  | .obj ms stop, 0, j, h => by cases h
  | .obj ms stop, d + 1, j, h => by
    simp only [Reading.value?] at h
    split at h
    · cases h
    · rename_i js hjs
      obtain ⟨rfl, hdepth⟩ := readings_of_memberValues? ms hjs
      split at h <;> cases h
      exact ⟨rfl, Nat.succ_le_succ hdepth⟩

theorem readings_of_values? : ∀ (vs : List Reading) {d : Nat} {js : List Json},
    Reading.values? d vs = .ok js → vs = readings js ∧ depths js ≤ d
  | [], d, js, h => by
    cases h
    exact ⟨rfl, Nat.zero_le _⟩
  | v :: vs, d, js, h => by
    rw [Reading.values?] at h
    split at h
    · cases h
    · rename_i j hj
      split at h <;> cases h
      rename_i js hjs
      obtain ⟨rfl, hv⟩ := reading_of_value? v hj
      obtain ⟨rfl, hvs⟩ := readings_of_values? vs hjs
      exact ⟨rfl, Nat.max_le.2 ⟨hv, hvs⟩⟩

theorem readings_of_memberValues? : ∀ (ms : List (Option String × Reading)) {d : Nat}
    {js : List (String × Json)},
    Reading.memberValues? d ms = .ok js → ms = memberReadings js ∧ memberDepths js ≤ d
  | [], d, js, h => by
    cases h
    exact ⟨rfl, Nat.zero_le _⟩
  | (none, v) :: ms, d, js, h => by cases h
  | (some k, v) :: ms, d, js, h => by
    rw [Reading.memberValues?] at h
    split at h
    · cases h
    · rename_i j hj
      split at h <;> cases h
      rename_i js hjs
      obtain ⟨rfl, hv⟩ := reading_of_value? v hj
      obtain ⟨rfl, hms⟩ := readings_of_memberValues? ms hjs
      exact ⟨rfl, Nat.max_le.2 ⟨hv, hms⟩⟩
end

mutual
theorem value?_reading : ∀ (j : Json) {d : Nat}, j.depth ≤ d → j.reading.value? d = .ok j
  | .null, d, h => rfl
  | .bool b, d, h => rfl
  | .int n, d, h => rfl
  | .float x, d, h => rfl
  | .str s, d, h => rfl
  | .arr js, 0, h => by simp [depth] at h
  | .arr js, d + 1, h => by
    rw [depth, Nat.add_le_add_iff_right] at h
    simp only [reading, Reading.value?, values?_readings js h]
  | .obj ms, 0, h => by simp [depth] at h
  | .obj ms, d + 1, h => by
    rw [depth, Nat.add_le_add_iff_right] at h
    simp only [reading, Reading.value?, memberValues?_memberReadings ms h]

theorem values?_readings : ∀ (js : List Json) {d : Nat},
    depths js ≤ d → Reading.values? d (readings js) = .ok js
  | [], d, h => rfl
  | j :: js, d, h => by
    obtain ⟨hj, hjs⟩ := Nat.max_le.1 h
    simp only [readings, Reading.values?, value?_reading j hj, values?_readings js hjs]

theorem memberValues?_memberReadings : ∀ (ms : List (String × Json)) {d : Nat},
    memberDepths ms ≤ d → Reading.memberValues? d (memberReadings ms) = .ok ms
  | [], d, h => rfl
  | (k, j) :: ms, d, h => by
    obtain ⟨hj, hms⟩ := Nat.max_le.1 h
    simp only [memberReadings, Reading.memberValues?, value?_reading j hj,
      memberValues?_memberReadings ms hms]
end

theorem value?_eq_ok_iff {v : Reading} {d : Nat} {j : Json} :
    v.value? d = .ok j ↔ v = j.reading ∧ j.depth ≤ d := by
  constructor
  · exact reading_of_value? v
  · rintro ⟨rfl, h⟩
    exact value?_reading j h

theorem reading_injective {i j : Json} (h : i.reading = j.reading) : i = j := by
  have hi := value?_reading i (Nat.le_max_left i.depth j.depth)
  rw [h, value?_reading j (Nat.le_max_right i.depth j.depth)] at hi
  cases hi
  rfl

theorem TreeText.append_blanks {v : Reading} {cs b : List Char} (h : TreeText v cs)
    (hb : Blanks b) : TreeText v (cs ++ b) := by
  obtain ⟨before, text, after, rfl, hbefore, htext, hafter⟩ := h
  exact ⟨before, text, after ++ b, by simp, hbefore, htext, blanks_append hafter hb⟩

theorem treeText_of_ofText {s : String} {v : Reading} (hv : v.skipFault = none)
    (h : Document.ofText s = ⟨v, none⟩) : TreeText v s.toList := by
  have hshows := (showFaults (2 * s.toList.length + 2)).value s.toList
  simp only [Document.ofText] at h
  split at h
  · rename_i w hvalue
    cases h
    rw [hvalue] at hshows
    exact absurd (hshows.1 hv) Bool.false_ne_true
  · rename_i w r hvalue
    obtain ⟨before, text, hb, hw, hs⟩ := (sound _).value hvalue
    split at h
    · rename_i hr
      cases h
      obtain ⟨after, ha, heq⟩ := exists_blanks r
      rw [List.isEmpty_iff.1 hr, List.append_nil] at heq
      exact ⟨before, text, r, hs, hb, hw, heq ▸ ha⟩
    · cases h

theorem ofText_of_treeText {s : String} {v : Reading} (h : TreeText v s.toList) :
    Document.ofText s = ⟨v, none⟩ := by
  obtain ⟨before, text, after, hs, hb, htext, ha⟩ := h
  have hafter : dropBlank after = [] := by
    have hdrop := dropBlank_append ha []
    rwa [List.append_nil] at hdrop
  have hfollows : Follows after := by
    have hfollows := follows_blanks (r := []) ha nofun
    rwa [List.append_nil] at hfollows
  have hfuel : 2 * text.length ≤ 2 * s.toList.length + 2 := by
    rw [hs, List.length_append, List.length_append]
    omega
  have hvalue := (complete (2 * s.toList.length + 2)).value htext hfuel hb hfollows
  rw [← hs] at hvalue
  simp only [Document.ofText, hvalue, hafter, List.isEmpty_nil, if_true]

theorem TreeText.skipFault {v : Reading} {cs : List Char} (h : TreeText v cs) :
    v.skipFault = none := by
  obtain ⟨before, text, after, -, -, htext, -⟩ := h
  exact htext.skipFault

theorem ofText_eq_iff {s : String} {v : Reading} (hv : v.skipFault = none) :
    Document.ofText s = ⟨v, none⟩ ↔ TreeText v s.toList :=
  ⟨treeText_of_ofText hv, ofText_of_treeText⟩

theorem parse_eq_ok_iff_ofText {s : String} {j : Json} :
    parse s = .ok j ↔ Document.ofText s = ⟨j.reading, none⟩ ∧ j.depth ≤ depthLimit := by
  simp only [parse]
  constructor
  · intro h
    split at h
    · cases h
    · rename_i v hv
      split at h <;> cases h
      rename_i htail
      obtain ⟨hroot, hdepth⟩ := value?_eq_ok_iff.1 hv
      exact ⟨by rw [← hroot, ← htail], hdepth⟩
  · rintro ⟨hs, hdepth⟩
    rw [hs, value?_reading j hdepth]

theorem documentText_iff {j : Json} {cs : List Char} :
    DocumentText j cs ↔ TreeText j.reading cs ∧ j.depth ≤ depthLimit := by
  constructor
  · rintro ⟨before, text, after, hcs, hb, hv, ha, hdepth⟩
    exact ⟨⟨before, text, after, hcs, hb, hv, ha⟩, hdepth⟩
  · rintro ⟨⟨before, text, after, hcs, hb, hv, ha⟩, hdepth⟩
    exact ⟨before, text, after, hcs, hb, hv, ha, hdepth⟩

/-- A text parses to a value exactly if it is a document that holds it. -/
theorem parse_eq_ok_iff {s : String} {j : Json} : parse s = .ok j ↔ DocumentText j s.toList := by
  rw [parse_eq_ok_iff_ofText, ofText_eq_iff (skipFault_reading j), documentText_iff]

end AccessControl.Json
