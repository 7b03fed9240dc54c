import AccessControl.Authority.Error
import AccessControl.Program.Config
import AccessControl.Proofs.Sequence
import AccessControl.Proofs.Settings.Layers
import AccessControl.Proofs.Text.Utf8
import Mathlib.Data.List.Induction

/-!
# Layers and defaults

What is found under a path once all layers lie over one another is said by the last layer that says
anything about it, provided that no layer is broken. One that is broken leaves every default taken.
-/

namespace AccessControl

namespace Settings

open Json

/-- Whether something that is no table stands on the way to the end of a path. -/
def hidesAt : List String → Json → Bool
  | [], _ => false
  | name :: path, v =>
    if name.isEmpty then false
    else
      match v with
      | .obj ms =>
        match member? name ms with
        | none => false
        | some w => hidesAt path w
      | _ => true

theorem isSome_findAt_overlay {path : List String} {v w : Json} (hv : v.Tidy) :
    (findAt path (overlay v (some w))).isSome ↔
      (findAt path v).isSome ∨ ((findAt path w).isSome ∧ ¬ hidesAt path v) := by
  induction path generalizing v w with
  | nil => simp [findAt]
  | cons name path ih =>
    by_cases hn : name.isEmpty
    · simp [findAt, hn]
    · cases v with
      | obj ts =>
        cases w with
        | obj us =>
          have hts := tidy_obj.1 hv
          simp only [overlay, findAt, hidesAt, if_neg hn, member?_overlayMembers hts.names]
          cases ht : member? name ts with
          | none => simp
          | some v =>
            cases hu : member? name us with
            | none => simp [overlay_none]
            | some w => simpa using ih (hts.member? ht)
        | _ => simp [overlay, findAt, hn]
      | _ => simp [overlay, findAt, hidesAt, hn]

namespace Layer

variable (p : Place) (path : String) (l : Layer)

def Broken : Prop := l.read p = .ok none

def Defines : Prop := ∃ ms, l.read p = .ok (some ms) ∧ (find? path ms).isSome

def Hides : Prop := ∃ ms, l.read p = .ok (some ms) ∧ hidesAt (pathOf path) (.obj ms)

end Layer

/-- The last layer with a say on a path defines it. The whole is there without any layer. -/
def Defined (p : Place) (ls : List Layer) (path : String) : Prop :=
  (find? path []).isSome ∨ Since (Layer.Defines p path) (Layer.Hides p path) ls

variable {p : Place} {ls : List Layer} {l : Layer} {s : Settings}

theorem ofLayers_append_singleton (h : ofLayers p (ls ++ [l]) = .ok s) :
    ∃ s₀ top, ofLayers p ls = .ok s₀ ∧ l.read p = .ok top ∧ s = ⟨join s₀.members? top⟩ := by
  simp only [ofLayers, List.mapM_append, List.mapM_cons, List.mapM_nil] at h ⊢
  cases hls : ls.mapM (Layer.read p) with
  | error e => simp [hls, bind, Except.bind, Except.map] at h
  | ok tops =>
    cases hl : l.read p with
    | error e => simp [hls, hl, bind, Except.bind, Except.map] at h
    | ok top =>
      refine ⟨_, top, rfl, rfl, ?_⟩
      simpa [hls, hl, bind, Except.bind, Except.map, pure, Except.pure] using h.symm

theorem isSome_find?_of_nil {path : String} (h : (find? path []).isSome) (ms : Members) :
    (find? path ms).isSome := by
  simp only [find?] at h ⊢
  cases hp : pathOf path with
  | nil => rfl
  | cons name rest =>
    rw [hp] at h
    by_cases hn : name.isEmpty
    · simp [findAt, hn]
    · simp [findAt, hn, member?] at h

theorem members?_eq_none_iff (h : ofLayers p ls = .ok s) :
    s.members? = none ↔ ∃ l ∈ ls, l.Broken p := by
  induction ls using List.reverseRecOn generalizing s with
  | nil =>
    cases h
    simp
  | append_singleton ls l ih =>
    obtain ⟨s₀, top, h₀, hl, rfl⟩ := ofLayers_append_singleton h
    have hlast : (∃ k ∈ ls ++ [l], k.Broken p) ↔ (∃ k ∈ ls, k.Broken p) ∨ top = none := by
      simp [or_and_right, exists_or, Layer.Broken, hl]
    rw [hlast, ← ih h₀]
    cases s₀.members? <;> cases top <;> simp [join]

theorem contains_iff (h : ofLayers p ls = .ok s) (hb : ∀ l ∈ ls, ¬ l.Broken p) (path : String) :
    s.contains path = true ↔ Defined p ls path := by
  -- from the end, since the layer on top has the first say
  induction ls using List.reverseRecOn generalizing s with
  | nil =>
    cases h
    simp [Defined, not_since_nil, contains, value?]
  | append_singleton ls l ih =>
    obtain ⟨s₀, top, h₀, hl, rfl⟩ := ofLayers_append_singleton h
    have hb₀ : ∀ l ∈ ls, ¬ l.Broken p := fun l hm => hb l (List.mem_append_left _ hm)
    have hi := ih h₀ hb₀
    have hm : s₀.members? ≠ none := by
      rw [ne_eq, members?_eq_none_iff h₀]
      simpa using hb₀
    obtain ⟨us, hus⟩ := Option.ne_none_iff_exists'.1 hm
    cases top with
    | none => exact absurd hl (hb l (List.mem_append_right _ (List.mem_singleton_self l)))
    | some ts =>
      have hd : l.Defines p path ↔ (find? path ts).isSome := by simp [Layer.Defines, hl]
      have hh : l.Hides p path ↔ hidesAt (pathOf path) (.obj ts) := by simp [Layer.Hides, hl]
      have hover : (find? path (overlayMembers ts us)).isSome ↔
          (find? path ts).isSome ∨ ((find? path us).isSome ∧ ¬ hidesAt (pathOf path) (.obj ts)) :=
        isSome_findAt_overlay (w := .obj us) (tidy_obj.2 (Layer.tidyMembers_read hl))
      simp only [contains, value?, hus, Option.bind_some] at hi
      simp only [contains, value?, hus, join, Option.bind_some]
      rw [hover, hi, Defined, Defined, since_append_singleton, hd, hh]
      constructor
      · rintro (ht | ⟨hw | hs, hn⟩)
        · exact .inr (.inl ht)
        · exact .inl hw
        · exact .inr (.inr ⟨hs, hn⟩)
      · rintro (hw | ht | ⟨hs, hn⟩)
        · exact .inl (isSome_find?_of_nil hw ts)
        · exact .inl ht
        · exact .inr ⟨.inr hs, hn⟩

def authorityConfig (s : Settings) : Except AuthorityError PermissionConfig :=
  s.permissions.mapError .ofSettings

theorem pathOf_eq_singleton {name : String} (hn : '.' ∉ name.toList) : pathOf name = [name] := by
  have go (cs : List Char) (hcs : '.' ∉ cs) : Text.splitOn '.' cs = [cs] := by
    induction cs with
    | nil => rfl
    | cons c cs ih =>
      obtain ⟨hc, hcs⟩ := not_or.1 (mt List.mem_cons.2 hcs)
      simp [Text.splitOn, ih hcs, Ne.symm hc]
  simp [pathOf, go _ hn]

theorem defined_name_iff {name : String} (h₀ : name ≠ "") (hn : '.' ∉ name.toList) :
    Defined p ls name ↔
      ∃ l ∈ ls, ∃ ms, l.read p = .ok (some ms) ∧ name ∈ ms.map (·.1) := by
  have he : name.isEmpty = false := by simpa using h₀
  have hf (ms : Members) : (find? name ms).isSome ↔ name ∈ ms.map (·.1) := by
    rw [← not_iff_not, ← member?_eq_none_iff]
    simp only [find?, pathOf_eq_singleton hn, findAt, he]
    cases member? name ms <;> simp
  have hh (l : Layer) : ¬ l.Hides p name := by
    rintro ⟨ms, -, h⟩
    simp only [pathOf_eq_singleton hn, hidesAt, he] at h
    cases hm : member? name ms <;> simp [hm] at h
  simp only [Defined, since_iff_exists hh, Layer.Defines, hf, List.map_nil, List.not_mem_nil,
    false_or]

/-- Settings that report a broken layer to everyone who reads them, and that lack something only
where no layer is broken and none defines it. -/
structure Honest (p : Place) (ls : List Layer) (s : Settings) : Prop where
  getOr : (∃ l ∈ ls, l.Broken p) → ∀ {α : Type} (path : String) (d : α) (read? : Json → Option α),
    s.getOr path d read? = .error .parse
  permissions : (∃ l ∈ ls, l.Broken p) → s.permissions = .error .parse
  authority : (∃ l ∈ ls, l.Broken p) → s.authorityConfig = .error (.ofSettings .parse)
  program : (∃ l ∈ ls, l.Broken p) → ProgramConfig.ofSettings s = .error .parse
  absent : ∀ path, s.contains path = false → (∀ l ∈ ls, ¬ l.Broken p) ∧ ¬ Defined p ls path

structure Silent (s : Settings) : Prop where
  getOr : ∀ {α : Type} (path : String) (d : α) (read? : Json → Option α),
    s.getOr path d read? = .ok d
  permissions : s.permissions = .ok .standard
  authority : s.authorityConfig = .ok .standard
  program : ProgramConfig.ofSettings s = .ok ⟨.standard, [], none⟩

/-- Settings that are read where layers define them, and are at their defaults everywhere else. -/
structure Layered (p : Place) (ls : List Layer) (s : Settings) : Prop where
  read : ∀ path, Defined p ls path → ∀ {α : Type} (d : α) (read? : Json → Option α),
    s.getOr path d read? = s.get path read?
  default : ∀ path, ¬ Defined p ls path → ∀ {α : Type} (d : α) (read? : Json → Option α),
    s.getOr path d read? = .ok d
  permissions : ¬ Defined p ls PermissionConfig.sectionKey →
    s.permissions = .ok .standard ∧ s.authorityConfig = .ok .standard
  identity : s.identity? = .ok none ↔ ¬ Defined p ls IdentityConfig.sectionKey
  program : ∀ c, ProgramConfig.ofSettings s = .ok c →
    (c.identity = none ↔ ¬ Defined p ls IdentityConfig.sectionKey) ∧
      (¬ Defined p ls PermissionConfig.sectionKey → c.permissions = .standard) ∧
      (¬ Defined p ls DataSourceConfig.sectionKey → c.dataSources = [])

theorem permissions_of_absent (h : s.contains PermissionConfig.sectionKey = false) :
    s.permissions = .ok .standard ∧ s.authorityConfig = .ok .standard := by
  have hp : s.permissions = .ok .standard := by
    simp only [Settings.permissions, getOr_eq_default _ _ h]
    rfl
  exact ⟨hp, by rw [authorityConfig, hp]; rfl⟩

theorem identity?_eq_none_iff :
    s.identity? = .ok none ↔ s.contains IdentityConfig.sectionKey = false := by
  simp only [identity?]
  cases s.contains IdentityConfig.sectionKey with
  | false => simp
  | true => cases s.identityAt IdentityConfig.sectionKey <;> simp [Except.map]

theorem ofSettings_eq_ok {c : ProgramConfig} (h : ProgramConfig.ofSettings s = .ok c) :
    s.identity? = .ok c.identity ∧ s.permissions = .ok c.permissions ∧
      s.dataSources = .ok c.dataSources := by
  simp only [ProgramConfig.ofSettings, bind, Except.bind] at h
  split at h
  · cases h
  · split at h
    · cases h
    · split at h <;> cases h
      exact ⟨‹_›, ‹_›, ‹_›⟩

theorem silent_of_absent (h : ∀ path, s.contains path = false) : s.Silent := by
  obtain ⟨hp, ha⟩ := permissions_of_absent (h _)
  have hi : s.identity? = .ok none := identity?_eq_none_iff.2 (h _)
  have hd : s.dataSources = .ok [] := getOr_eq_default _ _ (h _)
  refine ⟨fun path d read? => getOr_eq_default d read? (h path), hp, ha, ?_⟩
  simp only [ProgramConfig.ofSettings, hi, hp, hd]
  rfl

theorem layered_of_unbroken (h : ofLayers p ls = .ok s) (hu : ∀ l ∈ ls, ¬ l.Broken p) :
    s.Layered p ls := by
  have habsent {path : String} (hd : ¬ Defined p ls path) : s.contains path = false := by
    rwa [← Bool.not_eq_true, contains_iff h hu path]
  have hidentity : s.identity? = .ok none ↔ ¬ Defined p ls IdentityConfig.sectionKey := by
    rw [identity?_eq_none_iff, ← Bool.not_eq_true, contains_iff h hu]
  refine ⟨fun path hd _ d read? => ?_, fun path hd _ d read? => ?_,
    fun hd => permissions_of_absent (habsent hd), hidentity, fun c hc => ?_⟩
  · exact getOr_eq_get d read? ((contains_iff h hu path).2 hd)
  · exact getOr_eq_default d read? (habsent hd)
  · obtain ⟨hi, hp, hs⟩ := ofSettings_eq_ok hc
    refine ⟨?_, fun hd => ?_, fun hd => ?_⟩
    · rw [← hidentity, hi, Except.ok.injEq]
    · rw [(permissions_of_absent (habsent hd)).1] at hp
      exact (Except.ok.inj hp).symm
    · rw [dataSources, dataSourcesAt, getOr_eq_default _ _ (habsent hd)] at hs
      exact (Except.ok.inj hs).symm

/-- Settings are honest exactly if no layer is broken. If one is, they pass for empty, while what is
required of them cannot be read. If none is, each layer that has a name at its top counts. -/
theorem honest_iff_unbroken (h : ofLayers p ls = .ok s) :
    (s.Honest p ls ↔ ∀ l ∈ ls, ¬ l.Broken p) ∧
      ((∃ l ∈ ls, l.Broken p) → s.Silent ∧
        ∀ {α : Type} (path : String) (read? : Json → Option α), s.get path read? = .error .parse) ∧
      ((∀ l ∈ ls, ¬ l.Broken p) → s.Layered p ls ∧
        ∀ name, name ≠ "" → '.' ∉ name.toList → (Defined p ls name ↔
          ∃ l ∈ ls, ∃ ms, l.read p = .ok (some ms) ∧ name ∈ ms.map (·.1))) := by
  have hbroken (hb : ∃ l ∈ ls, l.Broken p) : ∀ path, s.value? path = none :=
    value?_eq_none_of_broken ((members?_eq_none_iff h).2 hb)
  have hsilent (hb : ∃ l ∈ ls, l.Broken p) : s.Silent :=
    silent_of_absent fun path => by simp [contains, hbroken hb]
  refine ⟨⟨fun hh l hl hb => ?_, fun hu => ?_⟩, fun hb => ⟨hsilent hb, fun path read? => ?_⟩,
    fun hu => ⟨layered_of_unbroken h hu, fun _ => defined_name_iff⟩⟩
  · have hs := (hsilent ⟨l, hl, hb⟩).permissions
    rw [hh.permissions ⟨l, hl, hb⟩] at hs
    cases hs
  · have hn : ¬ ∃ l ∈ ls, l.Broken p := fun ⟨l, hl, hb⟩ => hu l hl hb
    refine ⟨fun hb => absurd hb hn, fun hb => absurd hb hn, fun hb => absurd hb hn,
      fun hb => absurd hb hn, fun path hc => ⟨hu, fun hd => ?_⟩⟩
    rw [(contains_iff h hu path).2 hd] at hc
    cases hc
  · simp [get, hbroken hb]

theorem File.text?_ofText (s : String) : (File.ofText s).text? = some s := by
  simp only [File.ofText, File.text?, Text.ofUtf8?_eq_some_iff.2 rfl, Option.map_some,
    String.ofList_toList]

theorem honest_iff_unbroken_breaking_off :
    let p : Place := ⟨fun _ => some (.ofText "permissions.datasource = 'GRANTS_DB'"), []⟩
    let ls : List Layer := [.file "permctl.toml", .yaml "permissions: ["]
    ∃ s, ofLayers p ls = .ok s ∧ s.Silent ∧ ¬ s.Honest p ls := by
  intro p ls
  obtain ⟨ms, hms⟩ : ∃ ms, Toml.members? "permissions.datasource = 'GRANTS_DB'" = some ms :=
    Option.isSome_iff_exists.1 (by decide +kernel)
  have hy : Yaml.members? "permissions: [" = none :=
    Option.isNone_iff_eq_none.1 (by decide +kernel)
  have he : (extension? "permctl.toml").bind Format.ofExtension? = some .toml := by
    decide +kernel
  have hf : (Layer.file "permctl.toml").read p = .ok (some ms) := by
    simp only [Layer.read, p, he, File.text?_ofText, Option.bind_some, Format.members?, hms]
  have hb : (Layer.yaml "permissions: [").read p = .ok none := by simp only [Layer.read, hy]
  have hs : ofLayers p ls = .ok ⟨none⟩ := by
    simp only [ofLayers, ls, List.mapM_cons, List.mapM_nil, hf, hb]
    rfl
  have hmem : Layer.yaml "permissions: [" ∈ ls := by simp [ls]
  obtain ⟨hhonest, hsilent, -⟩ := honest_iff_unbroken hs
  exact ⟨_, hs, (hsilent ⟨_, hmem, hb⟩).1, fun hh => hhonest.1 hh _ hmem hb⟩

end Settings

end AccessControl
