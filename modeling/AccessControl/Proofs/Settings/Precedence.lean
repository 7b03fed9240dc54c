import AccessControl.Proofs.Json.Fields
import AccessControl.Proofs.Settings.Layering

/-!
# The last layer that says something

What stands under a name at the top is decided by what each layer has under that name and by nothing
else in it. Where these are mappings, each field is as the last layer that sets it has it.
-/

namespace AccessControl.Settings

open Json

def Layer.top? (p : Place) (name : String) (l : Layer) : Option Json :=
  match l.read p with
  | .ok (some ms) => member? name ms
  | _ => none

def tops (p : Place) (name : String) (ls : List Layer) : List (Option Json) :=
  ls.map (Layer.top? p name)

def overlaid (os : List (Option Json)) : Option Json :=
  os.foldl (fun under top =>
    match top with
    | none => under
    | some v => some (overlay v under)) none

def IsMapping (v : Json) : Prop := ∃ ms, v = .obj ms

instance : DecidablePred IsMapping
  | .obj ms => isTrue ⟨ms, rfl⟩
  | .null | .bool _ | .int _ | .float _ | .str _ | .arr _ => isFalse (by simp [IsMapping])

def fieldOf? (name : String) : Json → Option Json
  | .obj ms => member? name ms
  | _ => none

def lastSet? (name : String) (os : List (Option Json)) : Option Json :=
  os.reverse.findSome? fun o => o.bind (fieldOf? name)

variable {os : List (Option Json)} {o o' : Option Json} {name field : String}

theorem overlaid_append_none (os : List (Option Json)) : overlaid (os ++ [none]) = overlaid os := by
  rw [overlaid, List.foldl_append]
  rfl

theorem overlaid_append_some (os : List (Option Json)) (v : Json) :
    overlaid (os ++ [some v]) = some (overlay v (overlaid os)) := by
  rw [overlaid, List.foldl_append]
  rfl

theorem lastSet?_append_singleton (os : List (Option Json)) (o : Option Json) :
    lastSet? field (os ++ [o]) = (o.bind (fieldOf? field)).or (lastSet? field os) := by
  rw [lastSet?, List.reverse_append, List.reverse_singleton, List.findSome?_append,
    List.findSome?_singleton]
  rfl

theorem lastSet?_eq_none (h : ∀ o ∈ os, o = none) : lastSet? field os = none := by
  refine List.findSome?_eq_none_iff.2 fun o ho => ?_
  rw [h o (List.mem_reverse.1 ho)]
  rfl

/-- The same value or none, but that one mapping is as good as another. -/
def Alike (o o' : Option Json) : Prop :=
  o = o' ∨ (∃ ms, o = some (.obj ms)) ∧ ∃ ms, o' = some (.obj ms)

theorem Alike.decodes (h : Alike o o') (f : Field) (x : Scalar) :
    f.Decodes o x ↔ f.Decodes o' x := by
  rcases h with rfl | ⟨⟨ms, rfl⟩, ms', rfl⟩
  · exact Iff.rfl
  · simp only [Field.Decodes, read_obj]

theorem alike_overlay (v : Json) (o : Option Json) : Alike (some (overlay v o)) (some v) := by
  cases v with
  | obj ms =>
    cases o with
    | none => exact .inl rfl
    | some w => cases w <;> exact .inr ⟨⟨_, rfl⟩, _, rfl⟩
  | _ => exact .inl (congrArg some (overlay_of_leaf (by simp) o))

/-- A mapping in which each field is as the last of some mappings that sets it has it. -/
structure Joins (os : List (Option Json)) (ms : Members) : Prop where
  tidy : TidyMembers ms
  fields : ∀ field, Alike (member? field ms) (lastSet? field os)

theorem joins_overlaid (hos : ∀ v, some v ∈ os → v.Tidy ∧ IsMapping v) :
    (overlaid os = none ∧ ∀ o ∈ os, o = none) ∨
      ∃ ms, overlaid os = some (.obj ms) ∧ Joins os ms := by
  induction os using List.reverseRecOn with
  | nil => exact .inl ⟨rfl, nofun⟩
  | append_singleton os o ih =>
    have ih := ih fun v hv => hos v (List.mem_append_left _ hv)
    cases o with
    | none =>
      rw [overlaid_append_none]
      refine ih.imp (fun ⟨ho, hall⟩ => ⟨ho, ?_⟩) (fun ⟨ms, ho, hj⟩ => ⟨ms, ho, hj.tidy, ?_⟩)
      · exact List.forall_mem_append.2 ⟨hall, List.forall_mem_singleton.2 rfl⟩
      · intro field
        rw [lastSet?_append_singleton]
        exact hj.fields field
    | some v =>
      obtain ⟨hv, ts, rfl⟩ := hos v (List.mem_append_right _ (List.mem_singleton_self _))
      have hts := tidy_obj.1 hv
      rw [overlaid_append_some]
      -- the first mapping stands as it is; a later one is laid over what the earlier ones join to
      rcases ih with ⟨ho, hall⟩ | ⟨us, ho, hj⟩
      · refine .inr ⟨ts, by rw [ho, overlay_none], hts, fun field => .inl ?_⟩
        rw [lastSet?_append_singleton, lastSet?_eq_none hall, Option.or_none]
        rfl
      · refine .inr ⟨overlayMembers ts us, by rw [ho, overlay],
          tidyMembers_overlayMembers hts hj.tidy, fun field => ?_⟩
        rw [lastSet?_append_singleton, member?_overlayMembers hts.names]
        cases ht : member? field ts with
        | none =>
          rw [show (some (Json.obj ts)).bind (fieldOf? field) = none from ht, Option.none_or]
          exact hj.fields field
        | some w =>
          rw [show (some (Json.obj ts)).bind (fieldOf? field) = some w from ht, Option.some_or]
          exact alike_overlay w _

theorem overlaid_append_nones {os' : List (Option Json)} (h : ∀ o ∈ os', o = none) :
    overlaid (os ++ os') = overlaid os := by
  induction os' generalizing os with
  | nil => rw [List.append_nil]
  | cons o os' ih =>
    obtain ⟨ho, hos⟩ := List.forall_mem_cons.1 h
    rw [ho, List.append_cons, ih hos, overlaid_append_none]

theorem overlaid_arr {before after : List (Option Json)} {items : List Json}
    (h : ∀ o ∈ after, o = none) :
    overlaid (before ++ some (.arr items) :: after) = some (.arr items) := by
  rw [List.append_cons, overlaid_append_nones h, overlaid_append_some, overlay_of_leaf (by simp)]

variable {p : Place} {ls : List Layer} {s : Settings}

theorem find?_eq_member? (hn₀ : name ≠ "") (hn : '.' ∉ name.toList) (ms : Members) :
    find? name ms = member? name ms := by
  have he : name.isEmpty = false := by simpa using hn₀
  rw [find?, pathOf_eq_singleton hn, findAt, he, if_neg Bool.false_ne_true]
  cases member? name ms <;> rfl

theorem value?_eq_overlaid (h : ofLayers p ls = .ok s) (hb : ∀ l ∈ ls, ¬ l.Broken p)
    (hn₀ : name ≠ "") (hn : '.' ∉ name.toList) : s.value? name = overlaid (tops p name ls) := by
  induction ls using List.reverseRecOn generalizing s with
  | nil =>
    cases h
    exact find?_eq_member? hn₀ hn []
  | append_singleton ls l ih =>
    obtain ⟨s₀, top, h₀, hl, rfl⟩ := ofLayers_append_singleton h
    have hb₀ : ∀ l ∈ ls, ¬ l.Broken p := fun l hm => hb l (List.mem_append_left _ hm)
    have hm : s₀.members? ≠ none := by
      rw [ne_eq, members?_eq_none_iff h₀]
      simpa using hb₀
    obtain ⟨us, hus⟩ := Option.ne_none_iff_exists'.1 hm
    have hi := ih h₀ hb₀
    rw [value?, hus, Option.bind_some, find?_eq_member? hn₀ hn] at hi
    rw [tops, List.map_append, List.map_singleton]
    cases top with
    | none => exact absurd hl (hb l (List.mem_append_right _ (List.mem_singleton_self l)))
    | some ts =>
      have htop : l.top? p name = member? name ts := by simp only [Layer.top?, hl]
      have hts := (Layer.tidyMembers_read hl).names
      rw [value?, hus, join, Option.bind_some, find?_eq_member? hn₀ hn, member?_overlayMembers hts,
        htop, hi]
      cases member? name ts with
      | none => exact (overlaid_append_none _).symm
      | some v => exact (overlaid_append_some _ v).symm

theorem tidy_of_mem_tops {v : Json} (hv : some v ∈ tops p name ls) : v.Tidy := by
  obtain ⟨l, -, htop⟩ := List.mem_map.1 hv
  simp only [Layer.top?] at htop
  split at htop
  · rename_i hl
    exact (Layer.tidyMembers_read hl).member? htop
  · cases htop

/-- A result that is a value exactly where it is wanted, and else a failure to parse. -/
structure Reads {α : Type} (r : Except SettingsError α) (P : α → Prop) : Prop where
  ok : ∀ a, r = .ok a ↔ P a
  error : ∀ e, r = .error e → e = .parse

/-- Scalars of which each is what the last layer that sets its field has there, or the default of
the field if no layer sets it. -/
def Given (p : Place) (ls : List Layer) (name : String) (fields : List Field)
    (xs : List Scalar) : Prop :=
  List.Forall₂ (fun f x => f.Decodes (lastSet? f.name (tops p name ls)) x) fields xs

section

variable {α : Type} {fields : List Field} {build : List Scalar → Option α}
  {scalars : α → List Scalar}

theorem Joins.given_iff {ms : Members} (hj : Joins (tops p name ls) ms) {xs : List Scalar} :
    List.Forall₂ (fun f x => f.Decodes (member? f.name ms) x) fields xs ↔
      Given p ls name fields xs := by
  rw [Given]
  exact ⟨List.Forall₂.imp fun f x => ((hj.fields f.name).decodes f x).1,
    List.Forall₂.imp fun f x => ((hj.fields f.name).decodes f x).2⟩

theorem reads_get {ms : Members} (hv : s.value? name = some (.obj ms))
    (hj : Joins (tops p name ls) ms) (hf : Separate fields)
    (hbuild : ∀ xs a, build xs = some a ↔ xs = scalars a) :
    Reads (s.get name (record? fields build)) fun a => Given p ls name fields (scalars a) := by
  have hread (a : α) : record? fields build (.obj ms) = some a ↔
      Given p ls name fields (scalars a) := by
    rw [record?_obj_eq_some_iff hf hj.tidy.names]
    simp only [hbuild, exists_eq_right, hj.given_iff]
  rw [get, hv, Option.bind_some]
  constructor
  · intro a
    rw [← hread a]
    cases record? fields build (.obj ms) <;> simp
  · intro e he
    cases hr : record? fields build (.obj ms) with
    | none =>
      rw [hr] at he
      exact (Except.error.inj he).symm
    | some a =>
      rw [hr] at he
      cases he

theorem get_of_absent (hv : s.value? name = none) (read? : Json → Option α) :
    s.get name read? = .error .parse := by
  rw [get, hv]
  rfl

theorem given_iff_of_absent (h : ∀ o ∈ tops p name ls, o = none) {xs : List Scalar} :
    Given p ls name fields xs ↔ List.Forall₂ (fun f x => f.default? = some x) fields xs := by
  simp only [Given, lastSet?_eq_none h, Field.Decodes]

end

end AccessControl.Settings
