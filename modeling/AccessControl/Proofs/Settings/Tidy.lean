import AccessControl.Settings.Tree
import Mathlib.Data.List.Nodup

/-!
# Tidy trees

A tree is tidy if none of its objects names a member twice. Arrays end it: nothing is joined or
found inside them. What a tidy tree laid over another holds under a name is decided by the two
members of that name.
-/

namespace AccessControl

namespace Json

inductive Tidy : Json → Prop where
  | leaf {v : Json} (h : ∀ ms, v ≠ .obj ms) : Tidy v
  | obj {ms : List (String × Json)} (names : (ms.map (·.1)).Nodup) (members : ∀ m ∈ ms, Tidy m.2) :
    Tidy (.obj ms)

structure TidyMembers (ms : List (String × Json)) : Prop where
  names : (ms.map (·.1)).Nodup
  members : ∀ m ∈ ms, Tidy m.2

variable {ms : List (String × Json)} {name : String} {v : Json}

theorem tidy_obj : Tidy (.obj ms) ↔ TidyMembers ms := by
  constructor
  · rintro (⟨h⟩ | ⟨names, members⟩)
    · exact absurd rfl (h ms)
    · exact ⟨names, members⟩
  · exact fun h => .obj h.names h.members

theorem tidyMembers_nil : TidyMembers [] := ⟨List.nodup_nil, by simp⟩

theorem mem_of_member? (h : member? name ms = some v) : (name, v) ∈ ms := by
  induction ms with
  | nil => cases h
  | cons m ms ih =>
    obtain ⟨k, w⟩ := m
    simp only [member?] at h
    split at h
    · rename_i hk
      cases h
      rw [hk]
      exact List.mem_cons_self
    · exact List.mem_cons_of_mem _ (ih h)

theorem member?_eq_none_iff : member? name ms = none ↔ name ∉ ms.map (·.1) := by
  induction ms with
  | nil => simp [member?]
  | cons m ms ih =>
    obtain ⟨k, w⟩ := m
    simp only [member?, List.map_cons, List.mem_cons, not_or]
    split
    · rename_i hk
      simp [hk]
    · rename_i hk
      simp [ih, Ne.symm hk]

theorem TidyMembers.member? (h : TidyMembers ms) (hv : Json.member? name ms = some v) : v.Tidy :=
  h.members _ (mem_of_member? hv)

theorem setMember_eq_upsert (ms : List (String × Json)) :
    setMember name v ms = Settings.upsert name (fun _ => v) ms := by
  induction ms with
  | nil => rfl
  | cons m ms ih => simp only [setMember, Settings.upsert, ih]

end Json

namespace Settings

open Json

variable {ms ts us : Members} {name : String} {v w : Json}

theorem mem_names_upsert {under : Option Json → Json} {k : String} :
    k ∈ (upsert name under ms).map (·.1) ↔ k = name ∨ k ∈ ms.map (·.1) := by
  have h := member?_upsert name k under ms
  rw [← not_iff_not, not_or, ← member?_eq_none_iff, ← member?_eq_none_iff, h]
  split
  · rename_i hk
    simp [hk]
  · rename_i hk
    simp [Ne.symm hk]

theorem tidyMembers_upsert {under : Option Json → Json} (h : TidyMembers ms)
    (hnone : (under none).Tidy) (hsome : ∀ v, v.Tidy → (under (some v)).Tidy) :
    TidyMembers (upsert name under ms) := by
  induction ms with
  | nil => exact ⟨List.nodup_singleton _, by simpa [upsert] using hnone⟩
  | cons m ms ih =>
    obtain ⟨k, w⟩ := m
    obtain ⟨hw, hms⟩ := List.forall_mem_cons.1 h.members
    obtain ⟨hk, hnames⟩ := List.nodup_cons.1 h.names
    simp only [upsert]
    split
    · exact ⟨h.names, List.forall_mem_cons.2 ⟨hsome w hw, hms⟩⟩
    · rename_i hne
      have hu := ih ⟨hnames, hms⟩
      refine ⟨List.nodup_cons.2 ⟨?_, hu.names⟩, List.forall_mem_cons.2 ⟨hw, hu.members⟩⟩
      rw [mem_names_upsert]
      exact not_or.2 ⟨hne, hk⟩

theorem tidyMembers_ofPairs {ps : List (String × Json)} (h : ∀ p ∈ ps, p.2.Tidy) :
    TidyMembers (ofPairs ps) := by
  refine List.foldlRecOn _ _ tidyMembers_nil fun ms hms p hp => ?_
  rw [setMember_eq_upsert]
  exact tidyMembers_upsert hms (h p hp) fun _ _ => h p hp

theorem overlay_none (v : Json) : overlay v none = v := by
  cases v <;> rfl

theorem overlay_of_leaf (h : ∀ ms, v ≠ .obj ms) (o : Option Json) : overlay v o = v := by
  cases v with
  | obj ms => exact absurd rfl (h ms)
  | _ => cases o <;> simp [overlay]

theorem tidyMembers_overlayMembers_of
    (hts : ∀ m ∈ ts, m.2.Tidy ∧ ∀ w : Json, w.Tidy → (overlay m.2 (some w)).Tidy)
    (hus : TidyMembers us) : TidyMembers (overlayMembers ts us) := by
  induction ts generalizing us with
  | nil => simpa [overlayMembers] using hus
  | cons m ts ih =>
    obtain ⟨k, v⟩ := m
    obtain ⟨⟨hv, hover⟩, hts⟩ := List.forall_mem_cons.1 hts
    simp only [overlayMembers]
    exact ih hts (tidyMembers_upsert hus (by rwa [overlay_none]) hover)

theorem tidy_overlay (hv : v.Tidy) (hw : w.Tidy) : (overlay v (some w)).Tidy := by
  induction hv generalizing w with
  | leaf h =>
    rw [overlay_of_leaf h]
    exact .leaf h
  | @obj ts names members ih =>
    cases w with
    | obj us =>
      simp only [overlay]
      exact tidy_obj.2 (tidyMembers_overlayMembers_of
        (fun m hm => ⟨members m hm, fun w hw => ih m hm hw⟩) (tidy_obj.1 hw))
    | _ => exact tidy_obj.2 ⟨names, members⟩

theorem tidyMembers_overlayMembers (hts : TidyMembers ts) (hus : TidyMembers us) :
    TidyMembers (overlayMembers ts us) :=
  tidyMembers_overlayMembers_of
    (fun m hm => ⟨hts.members m hm, fun _ hw => tidy_overlay (hts.members m hm) hw⟩) hus

theorem member?_overlayMembers (hts : (ts.map (·.1)).Nodup) (name : String) :
    member? name (overlayMembers ts us) =
      match member? name ts with
      | none => member? name us
      | some v => some (overlay v (member? name us)) := by
  induction ts generalizing us with
  | nil => rfl
  | cons m ts ih =>
    obtain ⟨k, v⟩ := m
    obtain ⟨hk, hts⟩ := List.nodup_cons.1 hts
    simp only [overlayMembers, ih hts, member?_upsert, member?]
    by_cases hn : k = name
    · subst hn
      rw [member?_eq_none_iff.2 hk]
      simp
    · simp only [if_neg hn]

end Settings

end AccessControl
