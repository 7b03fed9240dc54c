import AccessControl.Proofs.Settings.Precedence
import AccessControl.Settings.Sections

/-!
# Sections as the layers leave them

The settings of the permission store and of the identity service are read field by field from what
the last layers say, whatever else the layers hold, and loading adds that they are valid.
-/

namespace AccessControl

open Json

namespace PermissionConfig

def scalars (c : PermissionConfig) : List Scalar :=
  [.text c.datasource, .flag c.createTables, .text c.permissionsTable, .text c.rolePermissionsTable]

theorem ofScalars_eq_some_iff {xs : List Scalar} {c : PermissionConfig} :
    ofScalars xs = some c ↔ xs = c.scalars := by
  constructor
  · intro h
    unfold ofScalars at h
    split at h
    · cases h
      rfl
    · cases h
  · rintro rfl
    rfl

theorem separate_fields : Separate fields where
  names := by decide
  nodup := by decide

theorem defaults_iff {c : PermissionConfig} :
    List.Forall₂ (fun f x => f.default? = some x) fields c.scalars ↔ c = standard := by
  obtain ⟨d, t, p, rp⟩ := c
  simp [fields, scalars, standard, Field.withDefault, eq_comm]

end PermissionConfig

namespace IdentityConfig

def scalars (c : IdentityConfig) : List Scalar :=
  [.text c.baseUrl, .count c.timeoutSecs, .optionalText c.token]

theorem ofScalars_eq_some_iff {xs : List Scalar} {c : IdentityConfig} :
    ofScalars xs = some c ↔ xs = c.scalars := by
  constructor
  · intro h
    unfold ofScalars at h
    split at h
    · cases h
      rfl
    · cases h
  · rintro rfl
    rfl

theorem separate_fields : Separate fields where
  names := by decide
  nodup := by decide

theorem no_defaults {xs : List Scalar} :
    ¬ List.Forall₂ (fun f x => f.default? = some x) fields xs := by
  intro h
  cases h with
  | cons hx _ => cases hx

end IdentityConfig

namespace Settings

variable {p : Place} {ls : List Layer} {s : Settings}

section

variable {name : String} (h : ofLayers p ls = .ok s) (hb : ∀ l ∈ ls, ¬ l.Broken p)
  (hn₀ : name ≠ "") (hn : '.' ∉ name.toList)

include h hb hn₀ hn

theorem value?_of_absent (ho : ∀ o ∈ tops p name ls, o = none) : s.value? name = none := by
  rw [value?_eq_overlaid h hb hn₀ hn, ← List.nil_append (tops p name ls), overlaid_append_nones ho]
  rfl

theorem value?_of_present (hmap : ∀ v, some v ∈ tops p name ls → IsMapping v)
    (ho : ∃ o ∈ tops p name ls, o ≠ none) :
    ∃ ms, s.value? name = some (.obj ms) ∧ Joins (tops p name ls) ms := by
  rw [value?_eq_overlaid h hb hn₀ hn]
  rcases joins_overlaid fun v hv => ⟨tidy_of_mem_tops hv, hmap v hv⟩ with ⟨-, hnone⟩ | hjoins
  · obtain ⟨o, hmem, hne⟩ := ho
    exact absurd (hnone o hmem) hne
  · exact hjoins

variable {α : Type} {fields : List Field} {build : List Scalar → Option α}
  {scalars : α → List Scalar}

theorem reads_of_present (hmap : ∀ v, some v ∈ tops p name ls → IsMapping v)
    (ho : ∃ o ∈ tops p name ls, o ≠ none) (hf : Separate fields)
    (hbuild : ∀ xs a, build xs = some a ↔ xs = scalars a) (d : α) :
    let P := fun a => Given p ls name fields (scalars a)
    Reads (s.get name (record? fields build)) P ∧
      Reads (s.getOr name d (record? fields build)) P := by
  obtain ⟨ms, hv, hj⟩ := value?_of_present h hb hn₀ hn hmap ho
  have hc : s.contains name = true := by rw [contains, hv]; rfl
  rw [getOr_eq_get d _ hc]
  exact ⟨reads_get hv hj hf hbuild, reads_get hv hj hf hbuild⟩

theorem get_getOr_of_absent (ho : ∀ o ∈ tops p name ls, o = none) (read? : Json → Option α)
    (d : α) : s.get name read? = .error .parse ∧ s.getOr name d read? = .ok d := by
  have hv := value?_of_absent h hb hn₀ hn ho
  have hc : s.contains name = false := by rw [contains, hv]; rfl
  exact ⟨get_of_absent hv read?, getOr_eq_default d read? hc⟩

end

/-- Sections as the last layers to say something have them: field by field where a layer has the
section, and valid once loaded. Where none has it there is nothing to be read, and the standard is
taken for it if a standard is asked for. -/
structure LastWins (p : Place) (ls : List Layer) (s : Settings) : Prop where
  permissionsAt : (∃ o ∈ tops p PermissionConfig.sectionKey ls, o ≠ none) →
    Reads (s.permissionsAt PermissionConfig.sectionKey) fun c =>
      Given p ls PermissionConfig.sectionKey PermissionConfig.fields c.scalars
  permissionsOrStandard :
    Reads (s.getOr PermissionConfig.sectionKey .standard PermissionConfig.ofValue?) fun c =>
      Given p ls PermissionConfig.sectionKey PermissionConfig.fields c.scalars
  identityAt : Reads (s.identityAt IdentityConfig.sectionKey) fun c =>
    Given p ls IdentityConfig.sectionKey IdentityConfig.fields c.scalars
  identityOrStandardAt : (∃ o ∈ tops p IdentityConfig.sectionKey ls, o ≠ none) →
    Reads (s.identityOrStandardAt IdentityConfig.sectionKey) fun c =>
      Given p ls IdentityConfig.sectionKey IdentityConfig.fields c.scalars
  loaded : ∀ c, s.permissions = .ok c ↔
    Given p ls PermissionConfig.sectionKey PermissionConfig.fields c.scalars ∧ c.fault? = none
  absent : ∀ name, name ≠ "" → '.' ∉ name.toList → (∀ o ∈ tops p name ls, o = none) →
    ∀ {α : Type} (d : α) (read? : Json → Option α),
      s.get name read? = .error .parse ∧ s.getOr name d read? = .ok d

theorem permissions_eq_ok_iff {P : PermissionConfig → Prop} {c : PermissionConfig}
    (h : Reads (s.getOr PermissionConfig.sectionKey .standard PermissionConfig.ofValue?) P) :
    s.permissions = .ok c ↔ P c ∧ c.fault? = none := by
  rw [← h.ok, Settings.permissions]
  cases s.getOr PermissionConfig.sectionKey .standard PermissionConfig.ofValue? with
  | error e =>
    refine iff_of_false (fun hok => ?_) fun hok => ?_
    · cases hok
    · cases hok.1
  | ok d =>
    rw [Except.bind, PermissionConfig.validate_eq_ok_iff, Except.ok.injEq]
    constructor
    · rintro ⟨hf, rfl⟩
      exact ⟨rfl, hf⟩
    · rintro ⟨rfl, hf⟩
      exact ⟨hf, rfl⟩

theorem reads_permissions (h : ofLayers p ls = .ok s) (hb : ∀ l ∈ ls, ¬ l.Broken p)
    (hmap : ∀ v, some v ∈ tops p PermissionConfig.sectionKey ls → IsMapping v) :
    ((∃ o ∈ tops p PermissionConfig.sectionKey ls, o ≠ none) →
      Reads (s.permissionsAt PermissionConfig.sectionKey) fun c =>
        Given p ls PermissionConfig.sectionKey PermissionConfig.fields c.scalars) ∧
    Reads (s.getOr PermissionConfig.sectionKey .standard PermissionConfig.ofValue?) fun c =>
      Given p ls PermissionConfig.sectionKey PermissionConfig.fields c.scalars := by
  have hn₀ : PermissionConfig.sectionKey ≠ "" := by decide
  have hn : '.' ∉ PermissionConfig.sectionKey.toList := by decide
  have hpresent (ho : ∃ o ∈ tops p PermissionConfig.sectionKey ls, o ≠ none) :=
    reads_of_present h hb hn₀ hn hmap ho PermissionConfig.separate_fields
      (fun _ _ => PermissionConfig.ofScalars_eq_some_iff) .standard
  refine ⟨fun ho => (hpresent ho).1, ?_⟩
  -- without the section the standard is taken, whose fields are the defaults
  by_cases ho : ∃ o ∈ tops p PermissionConfig.sectionKey ls, o ≠ none
  · exact (hpresent ho).2
  · have habsent : ∀ o ∈ tops p PermissionConfig.sectionKey ls, o = none := by simpa using ho
    rw [(get_getOr_of_absent h hb hn₀ hn habsent _ _).2]
    refine ⟨fun c => ?_, nofun⟩
    rw [given_iff_of_absent habsent, PermissionConfig.defaults_iff, Except.ok.injEq, eq_comm]

theorem reads_identity (h : ofLayers p ls = .ok s) (hb : ∀ l ∈ ls, ¬ l.Broken p)
    (hmap : ∀ v, some v ∈ tops p IdentityConfig.sectionKey ls → IsMapping v) :
    (Reads (s.identityAt IdentityConfig.sectionKey) fun c =>
      Given p ls IdentityConfig.sectionKey IdentityConfig.fields c.scalars) ∧
    ((∃ o ∈ tops p IdentityConfig.sectionKey ls, o ≠ none) →
      Reads (s.identityOrStandardAt IdentityConfig.sectionKey) fun c =>
        Given p ls IdentityConfig.sectionKey IdentityConfig.fields c.scalars) := by
  have hn₀ : IdentityConfig.sectionKey ≠ "" := by decide
  have hn : '.' ∉ IdentityConfig.sectionKey.toList := by decide
  have hpresent (ho : ∃ o ∈ tops p IdentityConfig.sectionKey ls, o ≠ none) :=
    reads_of_present h hb hn₀ hn hmap ho IdentityConfig.separate_fields
      (fun _ _ => IdentityConfig.ofScalars_eq_some_iff) .standard
  refine ⟨?_, fun ho => (hpresent ho).2⟩
  -- without the section there is nothing to read, and no base address to be given either
  by_cases ho : ∃ o ∈ tops p IdentityConfig.sectionKey ls, o ≠ none
  · exact (hpresent ho).1
  · have habsent : ∀ o ∈ tops p IdentityConfig.sectionKey ls, o = none := by simpa using ho
    rw [identityAt, (get_getOr_of_absent h hb hn₀ hn habsent _ .standard).1]
    refine ⟨fun c => iff_of_false nofun ?_, fun e he => (Except.error.inj he).symm⟩
    rw [given_iff_of_absent habsent]
    exact IdentityConfig.no_defaults

theorem value?_eq_of_tops {p' : Place} {ls' : List Layer} {s' : Settings} {name : String}
    (h : ofLayers p ls = .ok s) (hb : ∀ l ∈ ls, ¬ l.Broken p) (h' : ofLayers p' ls' = .ok s')
    (hb' : ∀ l ∈ ls', ¬ l.Broken p') (hn₀ : name ≠ "") (hn : '.' ∉ name.toList)
    (htops : tops p' name ls' = tops p name ls) : s'.value? name = s.value? name := by
  rw [value?_eq_overlaid h' hb' hn₀ hn, value?_eq_overlaid h hb hn₀ hn, htops]

theorem getOr_congr {α : Type} {s' : Settings} {path : String}
    (hv : s'.value? path = s.value? path) (d : α) (read? : Json → Option α) :
    s'.get path read? = s.get path read? ∧ s'.getOr path d read? = s.getOr path d read? := by
  have hget : s'.get path read? = s.get path read? := by rw [get, get, hv]
  refine ⟨hget, ?_⟩
  rw [getOr, getOr, contains, contains, hv, hget]

/-- Where no layer is broken and each that has one of these sections has a mapping there, the last
layer to set a field wins. What is under a name depends on what the layers have under that name
alone, and a list is replaced as a whole by the last layer that has one there. -/
theorem last_layer_wins (h : ofLayers p ls = .ok s) (hb : ∀ l ∈ ls, ¬ l.Broken p)
    (hmap : ∀ name ∈ [PermissionConfig.sectionKey, IdentityConfig.sectionKey],
      ∀ v, some v ∈ tops p name ls → IsMapping v) :
    s.LastWins p ls ∧
    (∀ p' ls' s', ofLayers p' ls' = .ok s' → (∀ l ∈ ls', ¬ l.Broken p') →
      ∀ name, name ≠ "" → '.' ∉ name.toList → tops p' name ls' = tops p name ls →
        (∀ {α : Type} (d : α) (read? : Json → Option α), s'.get name read? = s.get name read? ∧
          s'.getOr name d read? = s.getOr name d read?) ∧
        (name = PermissionConfig.sectionKey → s'.permissions = s.permissions)) ∧
    ∀ name, name ≠ "" → '.' ∉ name.toList → ∀ before items after,
      tops p name ls = before ++ some (.arr items) :: after → (∀ o ∈ after, o = none) →
        s.dataSourcesAt name =
          match items.mapM DataSourceConfig.ofValue? with
          | some cs => .ok cs
          | none => .error .parse := by
  obtain ⟨hpmap, himap⟩ := List.forall_mem_cons.1 hmap
  obtain ⟨hat, hor⟩ := reads_permissions h hb hpmap
  obtain ⟨hid, hidor⟩ := reads_identity h hb (List.forall_mem_singleton.1 himap)
  refine ⟨⟨hat, hor, hid, hidor, fun c => permissions_eq_ok_iff hor,
    fun name hn₀ hn ho _ d read? => get_getOr_of_absent h hb hn₀ hn ho read? d⟩, ?_, ?_⟩
  · intro p' ls' s' h' hb' name hn₀ hn htops
    have hv := value?_eq_of_tops h hb h' hb' hn₀ hn htops
    refine ⟨getOr_congr hv, fun hname => ?_⟩
    rw [Settings.permissions, Settings.permissions, ← hname, (getOr_congr hv _ _).2]
  · intro name hn₀ hn before items after htops hafter
    have hv : s.value? name = some (.arr items) := by
      rw [value?_eq_overlaid h hb hn₀ hn, htops, overlaid_arr hafter]
    have hc : s.contains name = true := by rw [contains, hv]; rfl
    rw [dataSourcesAt, getOr_eq_get _ _ hc, get, hv, Option.bind_some, list?]
    cases items.mapM DataSourceConfig.ofValue? <;> rfl

theorem eq_ok_of_toOption {ε α : Type} {r : Except ε α} {a : α} (h : r.toOption = some a) :
    r = .ok a := by
  cases r with
  | error e => cases h
  | ok b => exact congrArg _ (Option.some.inj h)

theorem last_layer_wins_overridden :
    let p : Place := ⟨fun _ =>
      some (.ofText "[permissions]\ndatasource = 'A'\npermissions_table = 't'\n"),
      [("APP_PERMISSIONS__DATASOURCE", "C")]⟩
    let ls : List Layer := [.file "base.toml",
      .yaml "permissions:\n  datasource: B\n  create_tables: false\nidentity:\n  token: t\n",
      .environment "APP_"]
    let c : PermissionConfig := ⟨"C", false, "t", "role_permissions"⟩
    ∃ s, ofLayers p ls = .ok s ∧ s.permissions = .ok c ∧
      Given p ls PermissionConfig.sectionKey PermissionConfig.fields c.scalars ∧ c.fault? = none ∧
      s.identityAt IdentityConfig.sectionKey = .error .parse := by
  intro p ls c
  have hread : (ofLayers p ls).toOption.map (fun s => (s.members?.isSome, s.permissions.toOption,
      (s.identityAt IdentityConfig.sectionKey).toOption)) = some (true, some c, none) := by
    decide +kernel
  have hmap : ∀ name ∈ [PermissionConfig.sectionKey, IdentityConfig.sectionKey],
      ∀ o ∈ tops p name ls, o.all (fun v => decide (IsMapping v)) = true := by
    decide +kernel
  obtain ⟨s, hs, heq⟩ := Option.map_eq_some_iff.1 hread
  obtain ⟨hunbroken, heq⟩ := Prod.mk.inj heq
  obtain ⟨hpermissions, hidentity⟩ := Prod.mk.inj heq
  have hok : ofLayers p ls = .ok s := eq_ok_of_toOption hs
  have hb : ∀ l ∈ ls, ¬ l.Broken p := by
    intro l hl hbroken
    rw [(members?_eq_none_iff hok).2 ⟨l, hl, hbroken⟩] at hunbroken
    cases hunbroken
  obtain ⟨hwins, -⟩ := last_layer_wins hok hb fun name hn v hv =>
    of_decide_eq_true (hmap name hn _ hv)
  have hp : s.permissions = .ok c := eq_ok_of_toOption hpermissions
  obtain ⟨hgiven, hvalid⟩ := (hwins.loaded c).1 hp
  refine ⟨s, hok, hp, hgiven, hvalid, ?_⟩
  cases hi : s.identityAt IdentityConfig.sectionKey with
  | ok d =>
    rw [hi] at hidentity
    cases hidentity
  | error e => rw [hwins.identityAt.error e hi]

/-- Without any layer an identity service is standard, though its base address has no default, and
settings of a permission store cannot be read, though all of their fields have one. -/
theorem absent_sections_have_no_fields :
    let p : Place := default
    let s : Settings := ⟨some []⟩
    ofLayers p [] = .ok s ∧
      s.identityOrStandardAt IdentityConfig.sectionKey = .ok .standard ∧
      (∀ c : IdentityConfig,
        ¬ Given p [] IdentityConfig.sectionKey IdentityConfig.fields c.scalars) ∧
      s.permissionsAt PermissionConfig.sectionKey = .error .parse ∧
      Given p [] PermissionConfig.sectionKey PermissionConfig.fields
        PermissionConfig.standard.scalars := by
  intro p s
  have hnone (name : String) : ∀ o ∈ tops p name [], o = none := nofun
  refine ⟨rfl, by decide, fun c => ?_, by decide, ?_⟩
  · rw [given_iff_of_absent (hnone _)]
    exact IdentityConfig.no_defaults
  · rw [given_iff_of_absent (hnone _)]
    exact PermissionConfig.defaults_iff.2 rfl

end Settings

end AccessControl
