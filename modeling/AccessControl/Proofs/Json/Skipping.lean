import AccessControl.Proofs.Json.Grammar

/-!
# Trees that are passed over

A tree can be passed over exactly if its text was read to the end of the value: a reader that has
met a fault leaves no text to go on with, and its tree shows the fault.
-/

namespace AccessControl.Json

mutual
theorem skipFault_reading : ∀ v : Json, v.reading.skipFault = none
  | .null => rfl
  | .bool _ => rfl
  | .int _ => rfl
  | .float _ => rfl
  | .str _ => rfl
  | .arr items => by
    rw [reading, Reading.skipFault, skipItems_readings items]
    rfl
  | .obj ms => by
    rw [reading, Reading.skipFault, skipMembers_memberReadings ms]
    rfl

theorem skipItems_readings : ∀ vs : List Json, Reading.skipItems (readings vs) = none
  | [] => rfl
  | v :: vs => by rw [readings, Reading.skipItems, skipFault_reading v, skipItems_readings vs]; rfl

theorem skipMembers_memberReadings :
    ∀ ms : List (String × Json), Reading.skipMembers (memberReadings ms) = none
  | [] => rfl
  | (k, v) :: ms => by
    rw [memberReadings, Reading.skipMembers, skipFault_reading v, skipMembers_memberReadings ms]
    rfl
end

namespace Reading

variable {v : Reading} {vs : List Reading} {ms : List (Option String × Reading)}
  {stop : Option Stop} {cs r : List Char} {fuel : Nat}

theorem skipItems_eq_none_iff : skipItems vs = none ↔ ∀ v ∈ vs, v.skipFault = none := by
  induction vs with
  | nil => simp [skipItems]
  | cons v vs ih => rw [skipItems, Option.or_eq_none_iff, ih, List.forall_mem_cons]

theorem skipMembers_eq_none_iff : skipMembers ms = none ↔ ∀ m ∈ ms, m.2.skipFault = none := by
  induction ms with
  | nil => simp [skipMembers]
  | cons m ms ih =>
    obtain ⟨k, v⟩ := m
    rw [skipMembers, Option.or_eq_none_iff, ih, List.forall_mem_cons]

theorem skipFault_arr_eq_none_iff :
    (Reading.arr vs stop).skipFault = none ↔ (∀ v ∈ vs, v.skipFault = none) ∧ stop = none := by
  rw [skipFault, Option.or_eq_none_iff, skipItems_eq_none_iff, Option.map_eq_none_iff]

theorem skipFault_obj_eq_none_iff :
    (Reading.obj ms stop).skipFault = none ↔ (∀ m ∈ ms, m.2.skipFault = none) ∧ stop = none := by
  rw [skipFault, Option.or_eq_none_iff, skipMembers_eq_none_iff, Option.map_eq_none_iff]

def Step.ShowsFault (s : Step) : Prop := s.value.skipFault = none ↔ s.rest.isSome = true

theorem showsFault_of_rest (h : v.skipFault = none) (r : List Char) :
    Step.ShowsFault ⟨v, some r⟩ :=
  iff_of_true h rfl

theorem showsFault_of_stop (h : v.skipFault ≠ none) : Step.ShowsFault ⟨v, none⟩ :=
  iff_of_false h Bool.false_ne_true

theorem showsFault_stopped (f : Fault) : (stopped f).ShowsFault := showsFault_of_stop nofun

theorem word_showsFault (h : v.skipFault = none) (ps cs : List Char) :
    (word v ps cs).ShowsFault := by
  induction ps generalizing cs with
  | nil => exact showsFault_of_rest h cs
  | cons p ps ih =>
    cases cs with
    | nil => exact showsFault_stopped .truncated
    | cons c cs =>
      rw [word]
      split
      · exact ih cs
      · exact showsFault_stopped .malformed

theorem skipFault_numeral (x : Numeral) : x.value.skipFault = none := by
  simp only [Numeral.value, apply_ite Reading.skipFault, Reading.skipFault, ite_self]

theorem number_showsFault (negative : Bool) (cs : List Char) :
    (number negative cs).ShowsFault := by
  cases hn : number negative cs with
  | mk v rest =>
    cases rest with
    | some r =>
      obtain ⟨x, us, -, -, -, rfl⟩ := number_sound hn
      exact showsFault_of_rest (skipFault_numeral x) r
    | none =>
      obtain ⟨onRead, onSkip, rfl⟩ := number_stops hn
      exact showsFault_of_stop nofun

/-- The steps of a reader of a value, and of items or members behind such as can be passed over. -/
structure ShowFaults (fuel : Nat) : Prop where
  value (cs : List Char) : (value fuel cs).ShowsFault
  items {done : List Reading} (h : ∀ v ∈ done, v.skipFault = none) (cs : List Char) :
    (items fuel done cs).ShowsFault
  members {done : List (Option String × Reading)} (h : ∀ m ∈ done, m.2.skipFault = none)
      (cs : List Char) : (members fuel done cs).ShowsFault

theorem value_showsFault (ih : ShowFaults fuel) (cs : List Char) :
    (value (fuel + 1) cs).ShowsFault := by
  unfold value
  split
  · exact showsFault_stopped .truncated
  · exact word_showsFault rfl _ _
  · exact word_showsFault rfl _ _
  · exact word_showsFault rfl _ _
  · exact number_showsFault true _
  · split
    · exact showsFault_of_rest rfl _
    · exact showsFault_of_rest rfl _
    · exact showsFault_of_stop (Option.some_ne_none _)
  · split
    · exact showsFault_of_stop (Option.some_ne_none _)
    · exact showsFault_of_rest rfl _
    · exact ih.items (fun v hv => absurd hv List.not_mem_nil) _
  · split
    · exact showsFault_of_stop (Option.some_ne_none _)
    · exact showsFault_of_rest rfl _
    · exact ih.members (fun m hm => absurd hm List.not_mem_nil) _
  · split
    · exact number_showsFault false _
    · exact showsFault_stopped .malformed

theorem items_showsFault (ih : ShowFaults fuel) {done : List Reading}
    (h : ∀ v ∈ done, v.skipFault = none) (cs : List Char) :
    (items (fuel + 1) done cs).ShowsFault := by
  have hvalue := ih.value cs
  unfold items
  split
  · rename_i v heq
    rw [heq] at hvalue
    refine showsFault_of_stop fun hskip => ?_
    have hv := (skipFault_arr_eq_none_iff.1 hskip).1 v (by simp)
    exact absurd (hvalue.1 hv) Bool.false_ne_true
  · rename_i v r heq
    rw [heq] at hvalue
    have hdone : ∀ w ∈ v :: done, w.skipFault = none := List.forall_mem_cons.2 ⟨hvalue.2 rfl, h⟩
    split
    · exact showsFault_of_rest
        (skipFault_arr_eq_none_iff.2 ⟨fun w hw => hdone w (List.mem_reverse.1 hw), rfl⟩) _
    · split
      · refine showsFault_of_stop fun hskip => ?_
        have hhole := (skipFault_arr_eq_none_iff.1 hskip).1 (.hole .malformed (some .malformed))
          (by simp)
        cases hhole
      · exact ih.items hdone _
    · refine showsFault_of_stop fun hskip => ?_
      cases (skipFault_arr_eq_none_iff.1 hskip).2

theorem members_showsFault (ih : ShowFaults fuel) {done : List (Option String × Reading)}
    (h : ∀ m ∈ done, m.2.skipFault = none) (cs : List Char) :
    (members (fuel + 1) done cs).ShowsFault := by
  have hstop (ms : List (Option String × Reading)) (s : Stop) :
      Step.ShowsFault ⟨.obj ms (some s), none⟩ :=
    showsFault_of_stop fun hskip => by cases (skipFault_obj_eq_none_iff.1 hskip).2
  unfold members
  split
  · split
    · exact hstop _ _
    · rename_i k r hk
      split
      · rename_i r' hr'
        have hvalue := ih.value r'
        split
        · rename_i v heq
          rw [heq] at hvalue
          refine showsFault_of_stop fun hskip => ?_
          have hv := (skipFault_obj_eq_none_iff.1 hskip).1 (k, v) (by simp)
          exact absurd (hvalue.1 hv) Bool.false_ne_true
        · rename_i v r'' heq
          rw [heq] at hvalue
          have hdone : ∀ m ∈ (k, v) :: done, m.2.skipFault = none :=
            List.forall_mem_cons.2 ⟨hvalue.2 rfl, h⟩
          split
          · exact showsFault_of_rest
              (skipFault_obj_eq_none_iff.2 ⟨fun m hm => hdone m (List.mem_reverse.1 hm), rfl⟩) _
          · exact ih.members hdone _
          · exact hstop _ _
      · refine showsFault_of_stop fun hskip => ?_
        have hhole := (skipFault_obj_eq_none_iff.1 hskip).1 _
          (List.mem_reverse.2 List.mem_cons_self)
        cases hhole
  · exact hstop _ _

theorem showFaults (fuel : Nat) : ShowFaults fuel := by
  induction fuel with
  | zero =>
    refine ⟨fun cs => showsFault_stopped .truncated, fun h cs => ?_, fun h cs => ?_⟩
    · refine showsFault_of_stop fun hskip => ?_
      cases (skipFault_arr_eq_none_iff.1 hskip).2
    · unfold members
      refine showsFault_of_stop fun hskip => ?_
      cases (skipFault_obj_eq_none_iff.1 hskip).2
  | succ fuel ih => exact ⟨value_showsFault ih, items_showsFault ih, members_showsFault ih⟩

theorem Spelled.skipFault (h : Spelled v cs) : v.skipFault = none := by
  have hvalue := (complete (2 * cs.length)).value h Nat.le.refl blanks_nil (r := []) nofun
  have hshows := (showFaults (2 * cs.length)).value ([] ++ (cs ++ []))
  rw [hvalue] at hshows
  exact hshows.2 rfl

end Reading

end AccessControl.Json
