import AccessControl.Proofs.Settings.Precedence

/-!
# Settings around a field

A table holds a value in a field of a section, and around it other fields and other sections. These
surroundings do not depend on the value when something without a say on the field is laid over the
table, or the table over something else. Nor do the other fields of a record read from the section.
-/

namespace AccessControl

namespace Settings

open Json

variable {ms ts us vs : Members} {sec field : String} {v w : Json} {o o' o'' : Option Json}

theorem Alike.trans (h : Alike o o') (h' : Alike o' o'') : Alike o o'' := by
  rcases h with rfl | ⟨ho, ms, rfl⟩
  · exact h'
  · rcases h' with rfl | ⟨-, ho'⟩
    · exact .inr ⟨ho, ms, rfl⟩
    · exact .inr ⟨ho, ho'⟩

theorem Alike.eq_some (h : Alike o (some v)) : ∃ x, o = some x := by
  rcases h with rfl | ⟨⟨ms, rfl⟩, -⟩
  · exact ⟨v, rfl⟩
  · exact ⟨.obj ms, rfl⟩

def laid (top under : Option Json) : Option Json :=
  match top with
  | none => under
  | some v => some (overlay v under)

/-- The other sections of a table, and the other fields of one section. -/
structure Frame where
  sections : String → Option Json
  fields : String → Option Json

/-- A value stands in a field of a section, or a mapping if the value is one. -/
structure Stands (sec field : String) (v : Json) (r : Frame) (ms : Members) : Prop where
  sections : ∀ name, name ≠ sec → member? name ms = r.sections name
  fields : ∃ us, member? sec ms = some (.obj us) ∧
    (∀ name, name ≠ field → member? name us = r.fields name) ∧ Alike (member? field us) (some v)

/-- A table that has no say on a field of a section. -/
def Quiet (sec field : String) (ts : Members) : Prop :=
  ∀ v, member? sec ts = some v → ∃ us, v = .obj us ∧ member? field us = none

variable {r : Frame}

theorem member?_overlayMembers_eq_laid (hts : (ts.map (·.1)).Nodup) (name : String) :
    member? name (overlayMembers ts us) = laid (member? name ts) (member? name us) := by
  rw [member?_overlayMembers hts]
  rfl

theorem overlay_obj (hts : (ts.map (·.1)).Nodup) (o : Option Json) :
    ∃ us, overlay (.obj ts) o = .obj us ∧
      ∀ name, member? name us = laid (member? name ts) (o.bind (fieldOf? name)) := by
  have hbare (name : String) : member? name ts = laid (member? name ts) none := by
    cases member? name ts with
    | none => rfl
    | some v => exact congrArg some (overlay_none v).symm
  cases o with
  | none => exact ⟨ts, overlay_none _, hbare⟩
  | some w =>
    cases w with
    | obj us => exact ⟨overlayMembers ts us, by rw [overlay], member?_overlayMembers_eq_laid hts⟩
    | _ => exact ⟨ts, by rw [overlay]; simp, hbare⟩

theorem stands_of_set (sec field : String) (v : Json) (ms : Members) :
    Stands sec field v
      ⟨fun name => member? name ms, fun name => (member? sec ms).bind (fieldOf? name)⟩
      (overlayMembers [(sec, .obj [(field, v)])] ms) := by
  have hone (k : String) (x : Json) : (([(k, x)] : Members).map (·.1)).Nodup :=
    List.nodup_singleton k
  have hmember (k name : String) (x : Json) :
      member? name [(k, x)] = if k = name then some x else none := rfl
  obtain ⟨us, hus, hfields⟩ := overlay_obj (hone field v) (member? sec ms)
  refine ⟨?_, us, ?_, ?_, ?_⟩
  · intro name hname
    rw [member?_overlayMembers_eq_laid (hone _ _), hmember, if_neg (Ne.symm hname)]
    rfl
  · rw [member?_overlayMembers_eq_laid (hone _ _), hmember, if_pos rfl]
    exact congrArg some hus
  · intro name hname
    rw [hfields, hmember, if_neg (Ne.symm hname)]
    rfl
  · rw [hfields, hmember, if_pos rfl]
    exact alike_overlay v _

theorem Stands.overlayMembers_of_quiet (h : Stands sec field v r ms) (hts : TidyMembers ts)
    (hq : Quiet sec field ts) :
    Stands sec field v
      ⟨fun name => laid (member? name ts) (r.sections name),
        fun name => laid ((member? sec ts).bind (fieldOf? name)) (r.fields name)⟩
      (overlayMembers ts ms) := by
  obtain ⟨us, hus, hfields, hv⟩ := h.fields
  refine ⟨?_, ?_⟩
  · intro name hname
    rw [member?_overlayMembers_eq_laid hts.names, h.sections name hname]
  · rw [member?_overlayMembers_eq_laid hts.names, hus]
    cases ht : member? sec ts with
    | none => exact ⟨us, rfl, hfields, hv⟩
    | some x =>
      obtain ⟨xs, rfl, hx⟩ := hq x ht
      obtain ⟨us', hus', hfields'⟩ :=
        overlay_obj (tidy_obj.1 (hts.member? ht)).names (some (.obj us))
      refine ⟨us', congrArg some hus', ?_, ?_⟩
      · intro name hname
        rw [hfields', Option.bind_some, fieldOf?, hfields name hname]
        rfl
      · rw [hfields', hx]
        exact hv

theorem Stands.overlayMembers_under (h : Stands sec field v r ms) (hms : TidyMembers ms)
    (under : Members) :
    Stands sec field v
      ⟨fun name => laid (r.sections name) (member? name under),
        fun name => laid (r.fields name) ((member? sec under).bind (fieldOf? name))⟩
      (overlayMembers ms under) := by
  obtain ⟨us, hus, hfields, hv⟩ := h.fields
  obtain ⟨us', hus', hfields'⟩ :=
    overlay_obj (tidy_obj.1 (hms.member? hus)).names (member? sec under)
  refine ⟨?_, us', ?_, ?_, ?_⟩
  · intro name hname
    rw [member?_overlayMembers_eq_laid hms.names, h.sections name hname]
  · rw [member?_overlayMembers_eq_laid hms.names, hus]
    exact congrArg some hus'
  · intro name hname
    rw [hfields', hfields name hname]
  · obtain ⟨x, hx⟩ := hv.eq_some
    rw [hx] at hv
    rw [hfields', hx]
    exact (alike_overlay x _).trans hv

section

variable {α : Type} {fields : List Field} {build : List Scalar → Option α}
  {scalars : α → List Scalar} {f : Field} {i : Nat} {x : Scalar} {a a' : α}

theorem record?_eq_none_of_field (hf : Separate fields) (hus : (us.map (·.1)).Nodup)
    (hi : fields[i]? = some f) (hno : ∀ x, ¬ f.Decodes (member? f.name us) x) :
    record? fields build (.obj us) = none := by
  rw [Option.eq_none_iff_forall_ne_some]
  intro a ha
  obtain ⟨xs, hxs, -⟩ := (record?_obj_eq_some_iff hf hus).1 ha
  obtain ⟨hlt, rfl⟩ := List.getElem?_eq_some_iff.1 hi
  have hlt' : i < xs.length := hxs.length_eq ▸ hlt
  exact hno xs[i] ((List.forall₂_iff_get.1 hxs).2 i hlt hlt')

theorem record?_eq_some_of_field (hf : Separate fields)
    (hbuild : ∀ xs a, build xs = some a ↔ xs = scalars a) (hus : (us.map (·.1)).Nodup)
    (hvs : (vs.map (·.1)).Nodup) (hi : fields[i]? = some f)
    (hsame : ∀ name, name ≠ f.name → member? name us = member? name vs)
    (hx : f.Decodes (member? f.name us) x) (ha : record? fields build (.obj vs) = some a)
    (ha' : scalars a' = (scalars a).set i x) : record? fields build (.obj us) = some a' := by
  obtain ⟨xs, hxs, hb⟩ := (record?_obj_eq_some_iff hf hvs).1 ha
  obtain rfl := (hbuild xs a).1 hb
  refine (record?_obj_eq_some_iff hf hus).2 ⟨scalars a', ?_, (hbuild _ _).2 rfl⟩
  rw [ha']
  obtain ⟨hlen, hall⟩ := List.forall₂_iff_get.1 hxs
  refine List.forall₂_iff_get.2 ⟨by rw [List.length_set, hlen], fun j hj hj' => ?_⟩
  rw [List.length_set] at hj'
  have hold := hall j hj hj'
  simp only [List.get_eq_getElem] at hold ⊢
  by_cases hij : i = j
  · subst hij
    obtain ⟨hlt, rfl⟩ := List.getElem?_eq_some_iff.1 hi
    rw [List.getElem_set_self]
    exact hx
  · have hname : fields[j].name ≠ f.name := fun hname =>
      hij (hf.eq_of_name hi (List.getElem?_eq_getElem hj) hname.symm).1
    rw [List.getElem_set_ne hij, hsame _ hname]
    exact hold

/-- Of two tables around a field, the second gives a record: so does the first with what stands
there in the place of the field, and no record if the field does not take it. -/
theorem record?_of_stands {ns : Members} (hf : Separate fields)
    (hbuild : ∀ xs a, build xs = some a ↔ xs = scalars a) (hi : fields[i]? = some f)
    (hms : TidyMembers ms) (hns : TidyMembers ns) (hm : Stands sec f.name v r ms)
    (hn : Stands sec f.name w r ns) :
    ∃ us vs, member? sec ms = some (.obj us) ∧ member? sec ns = some (.obj vs) ∧
      (∀ a a' x, f.Decodes (some v) x → record? fields build (.obj vs) = some a →
        scalars a' = (scalars a).set i x → record? fields build (.obj us) = some a') ∧
      ((∀ x, ¬ f.Decodes (some v) x) → record? fields build (.obj us) = none) := by
  obtain ⟨us, hus, husame, hv⟩ := hm.fields
  obtain ⟨vs, hvs, hvsame, -⟩ := hn.fields
  have hunames := (tidy_obj.1 (hms.member? hus)).names
  refine ⟨us, vs, hus, hvs, ?_, ?_⟩
  · intro a a' x hx ha ha'
    have hsame (name : String) (hname : name ≠ f.name) : member? name us = member? name vs := by
      rw [husame name hname, hvsame name hname]
    exact record?_eq_some_of_field hf hbuild hunames (tidy_obj.1 (hns.member? hvs)).names hi hsame
      ((hv.decodes f x).2 hx) ha ha'
  · intro hno
    exact record?_eq_none_of_field hf hunames hi fun x hx => hno x ((hv.decodes f x).1 hx)

end

end Settings

end AccessControl
