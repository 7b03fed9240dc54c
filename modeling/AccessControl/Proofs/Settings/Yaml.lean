import AccessControl.Proofs.Settings.Tidy
import AccessControl.Settings.Yaml.Value

/-!
# Tidy YAML

Whatever an anchor stands for is tidy, so what an alias repeats is too, and a mapping keeps one
member of each name.
-/

namespace AccessControl.Settings.Yaml

open Json

theorem tidy_null? {s : String} {v : Json} (h : null? s = some v) : v.Tidy := by
  simp only [null?] at h
  split at h <;> cases h
  exact .leaf (by simp)

theorem tidy_bool? {s : String} {v : Json} (h : bool? s = some v) : v.Tidy := by
  simp only [bool?] at h
  split at h
  · cases h
    exact .leaf (by simp)
  · split at h <;> cases h
    exact .leaf (by simp)

theorem tidy_int? {cs : List Char} {v : Json} (h : int? cs = some v) : v.Tidy := by
  simp only [int?] at h
  split at h
  · cases h
  · split at h <;>
    · obtain ⟨n, -, h⟩ := Option.bind_eq_some_iff.1 h
      split at h <;> cases h
      exact .leaf (by simp)

theorem tidy_float? {cs : List Char} {v : Json} (h : float? cs = some v) : v.Tidy := by
  have hv : ∃ x, v = .float x := by
    simp only [float?] at h
    grind
  obtain ⟨x, rfl⟩ := hv
  exact .leaf (by simp)

theorem tidy_resolve (s : String) : (resolve s).Tidy := by
  simp only [resolve]
  split
  · exact .leaf (by simp)
  · cases hv : ((null? s).or <| (bool? s).or <| (int? s.toList).or <|
        if isPaddedNumber s.toList then none else float? s.toList) with
    | none => exact .leaf (by simp)
    | some v =>
      simp only [Option.or_eq_some_iff, Option.ite_none_left_eq_some] at hv
      rw [Option.getD_some]
      rcases hv with hv | ⟨-, hv | ⟨-, hv | ⟨-, -, hv⟩⟩⟩
      · exact tidy_null? hv
      · exact tidy_bool? hv
      · exact tidy_int? hv
      · exact tidy_float? hv

theorem tidy_scalarValue {tag : Option String} {plain : Bool} {s : String} {v : Json}
    (h : scalarValue tag plain s = some v) : v.Tidy := by
  simp only [scalarValue] at h
  split at h
  · cases h
    split
    · exact tidy_resolve s
    · exact .leaf (by simp)
  · split at h
    · cases h
    · split at h
      · exact tidy_null? h
      · exact tidy_bool? h
      · exact tidy_int? h
      · exact tidy_float? h
      · cases h
        exact .leaf (by simp)

def TidyTarget (t : Target) : Prop := ∀ v, t.value = some v → v.Tidy

def TidyAnchors (as : Anchors) : Prop := ∀ a ∈ as.entries, ∀ t, a.target = some t → TidyTarget t

variable {as : Anchors}

theorem TidyAnchors.begin (h : TidyAnchors as) (anchor : Option String) :
    TidyAnchors (as.begin anchor) := by
  cases anchor with
  | none => exact h
  | some name =>
    intro a ha t ht
    rcases List.mem_cons.1 ha with rfl | ha
    · cases ht
    · exact h a ha t ht

theorem TidyAnchors.complete {id : Nat} {anchor : Option String} {t : Target} (h : TidyAnchors as)
    (ht : TidyTarget t) : TidyAnchors (as.complete id anchor t) := by
  cases anchor with
  | none => exact h
  | some name =>
    intro a ha t' ht'
    obtain ⟨b, hb, rfl⟩ := List.mem_map.1 ha
    split at ht'
    · cases ht'
      exact ht
    · exact h b hb t' ht'

theorem TidyAnchors.find? {name : String} {t : Target} (h : TidyAnchors as)
    (ht : as.find? name = some t) : TidyTarget t := by
  obtain ⟨a, ha, hat⟩ := Option.bind_eq_some_iff.1 ht
  exact h a (List.mem_of_find?_eq_some ha) t hat

theorem TidyAnchors.keyText {n : Node} {r : String × Nat × Anchors} (h : TidyAnchors as)
    (hr : keyText as n = some r) : TidyAnchors r.2.2 := by
  cases n with
  | «alias» name =>
    simp only [Yaml.keyText] at hr
    obtain ⟨t, -, hr⟩ := Option.bind_eq_some_iff.1 hr
    obtain ⟨s, -, hr⟩ := Option.bind_eq_some_iff.1 hr
    cases hr
    exact h
  | scalar p plain s =>
    cases hr
    exact (h.begin _).complete fun v hv => tidy_scalarValue hv
  | _ => cases hr

mutual
theorem tidy_value {as : Anchors} {n : Node} {e : Evaluated Json} (h : TidyAnchors as)
    (he : n.value as = some e) : e.value.Tidy ∧ TidyAnchors e.anchors := by
  cases n with
  | «alias» name =>
    simp only [Node.value] at he
    obtain ⟨t, ht, he⟩ := Option.bind_eq_some_iff.1 he
    obtain ⟨v, hv, he⟩ := Option.bind_eq_some_iff.1 he
    cases he
    exact ⟨h.find? ht v hv, h⟩
  | scalar p plain s =>
    simp only [Node.value] at he
    obtain ⟨v, hv, he⟩ := Option.bind_eq_some_iff.1 he
    cases he
    have htidy := tidy_scalarValue hv
    refine ⟨htidy, (h.begin _).complete ?_⟩
    rintro _ ⟨⟩
    exact htidy
  | sequence p xs =>
    simp only [Node.value] at he
    split at he
    · cases he
    · obtain ⟨r, hr, he⟩ := Option.bind_eq_some_iff.1 he
      cases he
      have htidy : (Json.arr r.value).Tidy := .leaf (by simp)
      refine ⟨htidy, (tidy_valuesOf (h.begin _) hr).complete ?_⟩
      rintro _ ⟨⟩
      exact htidy
  | mapping p ps =>
    simp only [Node.value] at he
    split at he
    · cases he
    · obtain ⟨r, hr, he⟩ := Option.bind_eq_some_iff.1 he
      cases he
      obtain ⟨hms, has⟩ := tidy_membersOf (h.begin _) hr
      have htidy := tidy_obj.2 (tidyMembers_ofPairs hms)
      refine ⟨htidy, has.complete ?_⟩
      rintro _ ⟨⟩
      exact htidy

theorem tidy_valuesOf {as : Anchors} {xs : List Node} {e : Evaluated (List Json)}
    (h : TidyAnchors as) (he : valuesOf as xs = some e) : TidyAnchors e.anchors := by
  cases xs with
  | nil =>
    cases he
    exact h
  | cons x xs =>
    simp only [valuesOf] at he
    obtain ⟨a, ha, he⟩ := Option.bind_eq_some_iff.1 he
    obtain ⟨r, hr, he⟩ := Option.bind_eq_some_iff.1 he
    cases he
    have has : TidyAnchors r.anchors := tidy_valuesOf (tidy_value h ha).2 hr
    exact has

theorem tidy_membersOf {as : Anchors} {ps : List (Node × Node)}
    {e : Evaluated (List (String × Json))} (h : TidyAnchors as) (he : membersOf as ps = some e) :
    (∀ m ∈ e.value, m.2.Tidy) ∧ TidyAnchors e.anchors := by
  cases ps with
  | nil =>
    cases he
    exact ⟨by simp, h⟩
  | cons p ps =>
    obtain ⟨k, x⟩ := p
    simp only [membersOf] at he
    obtain ⟨⟨name, n, as'⟩, hk, he⟩ := Option.bind_eq_some_iff.1 he
    obtain ⟨a, ha, he⟩ := Option.bind_eq_some_iff.1 he
    obtain ⟨r, hr, he⟩ := Option.bind_eq_some_iff.1 he
    cases he
    obtain ⟨hv, has⟩ := tidy_value (h.keyText hk) ha
    obtain ⟨hms, has⟩ := tidy_membersOf has hr
    exact ⟨List.forall_mem_cons.2 ⟨hv, hms⟩, has⟩
end

theorem tidyMembers_members? {s : String} {ms : List (String × Json)} (h : members? s = some ms) :
    TidyMembers ms := by
  simp only [members?] at h
  obtain ⟨ts, -, h⟩ := Option.bind_eq_some_iff.1 h
  obtain ⟨doc, -, h⟩ := Option.bind_eq_some_iff.1 h
  simp only [membersOfDocument] at h
  split at h
  · cases h
    exact tidyMembers_nil
  · split at h <;> cases h
    exact tidyMembers_nil
  · obtain ⟨r, hr, h⟩ := Option.bind_eq_some_iff.1 h
    split at h <;> cases h
    exact tidyMembers_ofPairs (tidy_membersOf (fun a ha => by cases ha) hr).1
  · cases h

end AccessControl.Settings.Yaml
