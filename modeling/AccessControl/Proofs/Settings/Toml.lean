import AccessControl.Proofs.Settings.Tidy
import AccessControl.Settings.Toml.Document

/-!
# Tidy TOML

No table under construction names an entry twice, whatever header or key is entered into it next,
and so none does when the document is complete.
-/

namespace AccessControl.Settings.Toml

open Json

theorem tidy_integer? {n : Int} {v : Json} (h : integer? n = some v) : v.Tidy := by
  simp only [integer?] at h
  split at h <;> cases h
  exact .leaf (by simp)

theorem tidy_decimalNumber {negative : Bool} {cs r : List Char} {v : Json}
    (h : decimalNumber negative cs = some (v, r)) : v.Tidy := by
  simp only [decimalNumber] at h
  obtain ⟨⟨whole, r₁⟩, -, h⟩ := Option.bind_eq_some_iff.1 h
  dsimp only at h
  split at h
  · cases h
  · obtain ⟨⟨fraction, r₂⟩, -, h⟩ := Option.bind_eq_some_iff.1 h
    obtain ⟨⟨exponent, r₃⟩, -, h⟩ := Option.bind_eq_some_iff.1 h
    dsimp only at h
    split at h
    · obtain ⟨n, hn, h⟩ := Option.bind_eq_some_iff.1 h
      cases h
      exact tidy_integer? hn
    · split at h <;> cases h
      exact .leaf (by simp)

theorem tidy_basedNumber {base : Nat} {cs r : List Char} {v : Json}
    (h : basedNumber base cs = some (v, r)) : v.Tidy := by
  simp only [basedNumber] at h
  obtain ⟨⟨ds, r₁⟩, -, h⟩ := Option.bind_eq_some_iff.1 h
  obtain ⟨n, -, h⟩ := Option.bind_eq_some_iff.1 h
  obtain ⟨w, hw, h⟩ := Option.bind_eq_some_iff.1 h
  cases h
  exact tidy_integer? hw

theorem tidy_number? {cs r : List Char} {v : Json} (h : number? cs = some (v, r)) : v.Tidy := by
  simp only [number?] at h
  split at h
  · exact tidy_basedNumber h
  · exact tidy_basedNumber h
  · exact tidy_basedNumber h
  · split at h
    · cases h
      exact .leaf (by simp)
    · cases h
      exact .leaf (by simp)
    · exact tidy_decimalNumber h

theorem tidy_scalar? {cs r : List Char} {v : Json} (h : scalar? cs = some (v, r)) : v.Tidy := by
  simp only [scalar?] at h
  split at h
  · cases h
    exact .leaf (by simp)
  · cases h
    exact .leaf (by simp)
  · obtain ⟨_, -, h⟩ := Option.map_eq_some_iff.1 h
    cases h
    exact .leaf (by simp)
  · obtain ⟨_, -, h⟩ := Option.map_eq_some_iff.1 h
    cases h
    exact .leaf (by simp)
  · split at h
    · obtain ⟨_, -, h⟩ := Option.map_eq_some_iff.1 h
      cases h
      refine .obj (List.nodup_singleton _) (List.forall_mem_singleton.2 ?_)
      exact .leaf (by simp)
    · exact tidy_number? h

/-- Items without an entry named twice; arrays are not looked into. -/
inductive Item.Tidy : Item → Prop where
  | value {v : Json} (h : v.Tidy) : Tidy (.value v)
  | table {origin : Origin} {es : Entries} (names : (es.map (·.1)).Nodup)
    (entries : ∀ e ∈ es, Tidy e.2) : Tidy (.table origin es)
  | tables {elements : List Entries} : Tidy (.tables elements)

structure TidyEntries (es : Entries) : Prop where
  names : (es.map (·.1)).Nodup
  entries : ∀ e ∈ es, e.2.Tidy

variable {es es' : Entries} {name : String} {x : Item}

theorem tidyEntries_nil : TidyEntries [] := ⟨List.nodup_nil, by simp⟩

theorem tidy_table {origin : Origin} : Item.Tidy (.table origin es) ↔ TidyEntries es := by
  constructor
  · rintro (_ | ⟨names, entries⟩ | _)
    exact ⟨names, entries⟩
  · exact fun h => .table h.names h.entries

theorem TidyEntries.find? (h : TidyEntries es) (hx : es.find? name = some x) : x.Tidy := by
  obtain ⟨-, h⟩ := h
  induction es with
  | nil => cases hx
  | cons e es ih =>
    obtain ⟨k, y⟩ := e
    obtain ⟨hy, hes⟩ := List.forall_mem_cons.1 h
    simp only [Entries.find?] at hx
    split at hx
    · cases hx
      exact hy
    · exact ih hx hes

theorem mem_names_set {k : String} :
    k ∈ (Entries.set name x es).map (·.1) ↔ k = name ∨ k ∈ es.map (·.1) := by
  induction es with
  | nil => simp [Entries.set]
  | cons e es ih =>
    obtain ⟨l, y⟩ := e
    simp only [Entries.set]
    split
    · rename_i hl
      rw [beq_iff_eq] at hl
      simp [hl]
    · simp only [List.map_cons, List.mem_cons, ih]
      exact or_left_comm

theorem TidyEntries.set (h : TidyEntries es) (hx : x.Tidy) : TidyEntries (es.set name x) := by
  induction es with
  | nil => exact ⟨List.nodup_singleton _, by simpa [Entries.set] using hx⟩
  | cons e es ih =>
    obtain ⟨k, y⟩ := e
    obtain ⟨hy, hes⟩ := List.forall_mem_cons.1 h.entries
    obtain ⟨hk, hnames⟩ := List.nodup_cons.1 h.names
    simp only [Entries.set]
    split
    · exact ⟨h.names, List.forall_mem_cons.2 ⟨hx, hes⟩⟩
    · rename_i hne
      rw [beq_iff_eq] at hne
      have hs := ih ⟨hnames, hes⟩
      refine ⟨List.nodup_cons.2 ⟨?_, hs.names⟩, List.forall_mem_cons.2 ⟨hy, hs.entries⟩⟩
      rw [mem_names_set]
      exact not_or.2 ⟨hne, hk⟩

theorem TidyEntries.change {f : Entries → Option Entries}
    (hf : ∀ {es es'}, TidyEntries es → f es = some es' → TidyEntries es') {path : List String}
    (h : TidyEntries es) (hc : es.change f path = some es') : TidyEntries es' := by
  induction path generalizing es es' with
  | nil => exact hf h hc
  | cons name path ih =>
    simp only [Entries.change] at hc
    split at hc
    · obtain ⟨inner, hi, rfl⟩ := Option.map_eq_some_iff.1 hc
      exact h.set (tidy_table.2 (ih tidyEntries_nil hi))
    · rename_i hx
      obtain ⟨inner, hi, rfl⟩ := Option.map_eq_some_iff.1 hc
      exact h.set (tidy_table.2 (ih (tidy_table.1 (h.find? hx)) hi))
    · obtain ⟨last, -, rfl⟩ := Option.map_eq_some_iff.1 hc
      exact h.set .tables
    · cases hc

theorem TidyEntries.insert {v : Json} {path : List String} (hv : v.Tidy) (h : TidyEntries es)
    (hi : Entries.insert v path es = some es') : TidyEntries es' := by
  induction path generalizing es es' with
  | nil => cases hi
  | cons name path ih =>
    cases path with
    | nil =>
      simp only [Entries.insert] at hi
      split at hi <;> cases hi
      exact h.set (.value hv)
    | cons next path =>
      simp only [Entries.insert] at hi
      split at hi
      · obtain ⟨inner, hinner, rfl⟩ := Option.map_eq_some_iff.1 hi
        exact h.set (tidy_table.2 (ih tidyEntries_nil hinner))
      · rename_i hx
        split at hi
        · cases hi
        · obtain ⟨inner, hinner, rfl⟩ := Option.map_eq_some_iff.1 hi
          exact h.set (tidy_table.2 (ih (tidy_table.1 (h.find? hx)) hinner))
      · cases hi

theorem TidyEntries.openTable (h : TidyEntries es) (ho : es.openTable name = some es') :
    TidyEntries es' := by
  simp only [Entries.openTable] at ho
  split at ho
  · cases ho
    exact h.set (tidy_table.2 tidyEntries_nil)
  · rename_i hx
    cases ho
    exact h.set (tidy_table.2 (tidy_table.1 (h.find? hx)))
  · cases ho

theorem TidyEntries.openElement (h : TidyEntries es) (ho : es.openElement name = some es') :
    TidyEntries es' := by
  simp only [Entries.openElement] at ho
  split at ho <;> cases ho <;> exact h.set .tables

theorem names_entriesToJson (es : Entries) : (entriesToJson es).map (·.1) = es.map (·.1) := by
  induction es with
  | nil => rfl
  | cons e es ih => simp only [entriesToJson, List.map_cons, ih]

theorem tidyMembers_entriesToJson_of (hn : (es.map (·.1)).Nodup) (h : ∀ e ∈ es, e.2.toJson.Tidy) :
    TidyMembers (entriesToJson es) := by
  refine ⟨names_entriesToJson es ▸ hn, ?_⟩
  clear hn
  induction es with
  | nil => simp [entriesToJson]
  | cons e es ih =>
    obtain ⟨he, hes⟩ := List.forall_mem_cons.1 h
    simp only [entriesToJson]
    exact List.forall_mem_cons.2 ⟨he, ih hes⟩

theorem tidy_toJson (h : x.Tidy) : x.toJson.Tidy := by
  induction h with
  | value h => exact h
  | table names _ ih => exact tidy_obj.2 (tidyMembers_entriesToJson_of names ih)
  | tables => exact .leaf (by simp [Item.toJson])

theorem TidyEntries.toJson (h : TidyEntries es) : TidyMembers (entriesToJson es) :=
  tidyMembers_entriesToJson_of h.names fun e he => tidy_toJson (h.entries e he)

theorem tidy_value (fuel : Nat) :
    (∀ {depth cs v r}, value depth fuel cs = some (v, r) → v.Tidy) ∧
      ∀ {depth es cs es' r}, TidyEntries es → inlineEntries depth fuel es cs = some (es', r) →
        TidyEntries es' := by
  induction fuel with
  | zero =>
    refine ⟨fun h => ?_, fun _ h => ?_⟩
    · simp [value] at h
    · simp [inlineEntries] at h
  | succ fuel ih =>
    obtain ⟨ihv, ihe⟩ := ih
    constructor
    · intro depth cs v r h
      simp only [value] at h
      split at h
      · split at h
        · cases h
        · obtain ⟨_, -, h⟩ := Option.map_eq_some_iff.1 h
          cases h
          exact .leaf (by simp)
      · split at h
        · cases h
        · split at h
          · cases h
            exact tidy_obj.2 tidyMembers_nil
          · obtain ⟨⟨es, r'⟩, he, h⟩ := Option.map_eq_some_iff.1 h
            cases h
            exact tidy_obj.2 (ihe tidyEntries_nil he).toJson
      · exact tidy_scalar? h
    · intro depth es cs es' r hes h
      simp only [inlineEntries] at h
      split at h
      · split at h
        · cases h
        · rename_i hv
          split at h
          · cases h
          · rename_i hi
            have hes' := hes.insert (ihv hv) hi
            split at h
            · exact ihe hes' h
            · cases h
              exact hes'
            · cases h
      · cases h

theorem TidyEntries.opened {element : Bool} {path : List String} (h : TidyEntries es)
    (ho : opened element path es = some es') : TidyEntries es' := by
  simp only [Toml.opened] at ho
  split at ho
  · refine h.change (fun hes hc => ?_) ho
    cases element
    · exact hes.openTable hc
    · exact hes.openElement hc
  · cases ho

theorem tidy_header {cs r : List Char} {s s' : State} (hs : TidyEntries s.root)
    (h : header cs s = some (s', r)) : TidyEntries s'.root := by
  simp only [header] at h
  split at h
  · cases h
  · split at h <;> cases h
    · rename_i ho _ _
      exact hs.opened ho
    · rename_i ho _ _
      exact hs.opened ho

theorem tidy_pair {cs r : List Char} {s s' : State} (hs : TidyEntries s.root)
    (h : pair cs s = some (s', r)) : TidyEntries s'.root := by
  simp only [pair] at h
  split at h
  · split at h
    · cases h
    · rename_i hv
      obtain ⟨root, hr, h⟩ := Option.map_eq_some_iff.1 h
      cases h
      exact hs.change (fun hes hi => hes.insert ((tidy_value _).1 hv) hi) hr
  · cases h

theorem tidy_lines {fuel : Nat} {cs : List Char} {s s' : State} (hs : TidyEntries s.root)
    (h : lines fuel cs s = some s') : TidyEntries s'.root := by
  induction fuel generalizing cs s with
  | zero => simp [lines] at h
  | succ fuel ih =>
    simp only [lines] at h
    split at h
    · cases h
      exact hs
    · split at h
      · split at h
        · exact ih hs h
        · cases h
      · split at h
        · cases h
        · rename_i hstep
          split at h
          · refine ih ?_ h
            split at hstep
            · exact tidy_header hs hstep
            · exact tidy_pair hs hstep
          · cases h

theorem tidyMembers_members? {text : String} {ms : List (String × Json)}
    (h : members? text = some ms) : TidyMembers ms := by
  simp only [members?] at h
  obtain ⟨s, hs, rfl⟩ := Option.map_eq_some_iff.1 h
  have hroot : TidyEntries s.root := tidy_lines tidyEntries_nil hs
  exact hroot.toJson

end AccessControl.Settings.Toml
