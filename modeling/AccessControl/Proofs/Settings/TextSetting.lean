import AccessControl.Program.Config
import AccessControl.Proofs.Settings.Decoded
import AccessControl.Proofs.Settings.Literal
import AccessControl.Proofs.Settings.Variables

/-!
# Texts from the environment

A variable that stands for a text has its value read for what it may mean first. What means a text
is loaded as that text, which is the value itself unless that has blanks at its ends or a meaning of
its own. What means anything else is no text, and nothing is loaded.
-/

namespace AccessControl

open Json Settings

namespace Settings

variable {s : Settings} {p : Place} {ls : List Layer}

theorem value?_of_members {name : String} (hn₀ : name ≠ "") (hn : '.' ∉ name.toList)
    (ms : Members) :
    (⟨some ms⟩ : Settings).value? name = member? name ms :=
  find?_eq_member? hn₀ hn ms

theorem permissions_of_value {v : Json} (hv : s.value? PermissionConfig.sectionKey = some v) :
    s.permissions =
      match PermissionConfig.ofValue? v with
      | some c => c.validate
      | none => .error .parse := by
  have hc : s.contains PermissionConfig.sectionKey = true := by rw [contains, hv]; rfl
  rw [Settings.permissions, getOr_eq_get _ _ hc, get, hv, Option.bind_some]
  generalize PermissionConfig.validate = validate
  cases PermissionConfig.ofValue? v <;> rfl

theorem identity?_of_value {v : Json} (hv : s.value? IdentityConfig.sectionKey = some v) :
    s.identity? =
      match IdentityConfig.ofValue? v with
      | some c => .ok (some c)
      | none => .error .parse := by
  have hc : s.contains IdentityConfig.sectionKey = true := by rw [contains, hv]; rfl
  rw [Settings.identity?, if_pos hc, identityAt, get, hv, Option.bind_some]
  cases IdentityConfig.ofValue? v <;> rfl

theorem validate_of_permissions {c : PermissionConfig} (h : s.permissions = .ok c) :
    c.validate = .ok c := by
  rw [Settings.permissions] at h
  cases hr : s.getOr PermissionConfig.sectionKey .standard PermissionConfig.ofValue? with
  | error e =>
    rw [hr] at h
    cases h
  | ok d =>
    rw [hr, Except.bind] at h
    obtain ⟨-, rfl⟩ := PermissionConfig.validate_eq_ok_iff.1 h
    exact h

theorem sections_congr {s' : Settings} {name : String} (hv : s'.value? name = s.value? name) :
    (name = IdentityConfig.sectionKey → s'.identity? = s.identity?) ∧
    (name = PermissionConfig.sectionKey → s'.permissions = s.permissions) ∧
    (name = DataSourceConfig.sectionKey → s'.dataSources = s.dataSources) := by
  refine ⟨?_, ?_, ?_⟩
  · rintro rfl
    rw [Settings.identity?, Settings.identity?, contains, contains, hv, identityAt, identityAt, get,
      get, hv]
  · rintro rfl
    rw [Settings.permissions, Settings.permissions, (getOr_congr hv _ _).2]
  · rintro rfl
    exact (getOr_congr hv _ _).2

theorem ofLayers_append_environment (start : String) :
    ofLayers p (ls ++ [.environment start]) =
      (ofLayers p ls).map fun s => ⟨join s.members? (some (p.environment.members start))⟩ := by
  simp only [ofLayers, List.mapM_append, List.mapM_cons, List.mapM_nil, Layer.read]
  cases ls.mapM (Layer.read p) with
  | error e => rfl
  | ok tops =>
    simp [bind, Except.bind, Except.map, pure, Except.pure]

theorem tidyMembers_of_ofLayers {ms : Members} (h : ofLayers p ls = .ok s)
    (hs : s.members? = some ms) : TidyMembers ms := by
  induction ls using List.reverseRecOn generalizing s ms with
  | nil =>
    cases h
    cases hs
    exact tidyMembers_nil
  | append_singleton ls l ih =>
    obtain ⟨s₀, top, h₀, hl, rfl⟩ := ofLayers_append_singleton h
    cases hm : s₀.members? with
    | none => simp [join, hm] at hs
    | some us =>
      cases top with
      | none => simp [join] at hs
      | some ts =>
        simp only [join, hm, Option.some.injEq] at hs
        rw [← hs]
        exact tidyMembers_overlayMembers (Layer.tidyMembers_read hl) (ih h₀ hm)

end Settings

namespace ProgramConfig

def files (p : Place) (path : Option String) : List Layer :=
  match path with
  | some path => [.file path]
  | none => if (p.file? standardFile).isSome then [.file standardFile] else []

theorem layers_eq_append (p : Place) (path : Option String) :
    layers p path = files p path ++ [.environment variableStart] := by
  cases path <;> rfl

theorem ofLayers_files (p : Place) (env : Environment) (path : Option String) :
    ofLayers { p with environment := env } (files { p with environment := env } path) =
      ofLayers p (files p path) := by
  cases path with
  | some path => rfl
  | none =>
    unfold files
    dsimp only
    split <;> rfl

theorem load_eq {p : Place} {path : Option String} {env : Environment} {c : ProgramConfig}
    (h : load { p with environment := env } path = .ok c)
    (hb : ∀ l ∈ layers p path, ¬ l.Broken p) :
    ∃ under, TidyMembers under ∧ ∀ env', load { p with environment := env' } path =
      ofSettings ⟨some (overlayMembers (env'.members variableStart) under)⟩ := by
  have hload (env' : Environment) : load { p with environment := env' } path =
      ((ofLayers p (files p path)).map fun s : Settings =>
        (⟨join s.members? (some (env'.members variableStart))⟩ : Settings)).bind ofSettings := by
    rw [load, layers_eq_append, ofLayers_append_environment, ofLayers_files]
    rfl
  rw [hload] at h
  cases hs : ofLayers p (files p path) with
  | error e =>
    rw [hs] at h
    cases h
  | ok s =>
    have hm : s.members? ≠ none := by
      rw [ne_eq, members?_eq_none_iff hs]
      intro hbroken
      obtain ⟨l, hl, hbroken⟩ := hbroken
      exact hb l (by rw [layers_eq_append]; exact List.mem_append_left _ hl) hbroken
    obtain ⟨under, hunder⟩ := Option.ne_none_iff_exists'.1 hm
    refine ⟨under, tidyMembers_of_ofLayers hs hunder, fun env' => ?_⟩
    rw [hload, hs, Except.map, hunder]
    rfl

def checked (c : ProgramConfig) : Except SettingsError ProgramConfig :=
  c.permissions.validate.map fun _ => c

end ProgramConfig

/-- The settings that are one text, as far as they say where data and identities are. -/
inductive TextSetting where
  | datasource
  | baseUrl
  | token
deriving DecidableEq, Repr

namespace TextSetting

def sectionKey : TextSetting → String
  | datasource => PermissionConfig.sectionKey
  | baseUrl | token => IdentityConfig.sectionKey

def fieldName : TextSetting → String
  | datasource => "datasource"
  | baseUrl => "base_url"
  | token => "token"

def variableName : TextSetting → String
  | datasource => "PERMCTL_PERMISSIONS__DATASOURCE"
  | baseUrl => "PERMCTL_IDENTITY__BASE_URL"
  | token => "PERMCTL_IDENTITY__TOKEN"

def get? (c : ProgramConfig) : TextSetting → Option String
  | datasource => some c.permissions.datasource
  | baseUrl => c.identity.map (·.baseUrl)
  | token => c.identity.bind (·.token)

def put (c : ProgramConfig) (t : String) : TextSetting → ProgramConfig
  | datasource => { c with permissions := { c.permissions with datasource := t } }
  | baseUrl => { c with identity := c.identity.map fun i => { i with baseUrl := t } }
  | token => { c with identity := c.identity.map fun i => { i with token := some t } }

variable {f : TextSetting} {v w : Json} {ms ns : Members} {r : Frame} {c : ProgramConfig}

theorem path?_variableName (f : TextSetting) :
    Environment.path? ProgramConfig.variableStart f.variableName =
      some [f.sectionKey, f.fieldName] := by
  cases f <;> decide

end TextSetting

namespace ProgramConfig

section

variable {s : Settings} {v w : Json} {ms ns : Members} {r : Frame} {c : ProgramConfig} {i : Nat}
  {fd : Field}

theorem ofSettings_of_parts {a : PermissionConfig} {ds : List DataSourceConfig}
    {o : Option IdentityConfig} (hi : s.identity? = .ok o) (hp : s.permissions = a.validate)
    (hd : s.dataSources = .ok ds) : ofSettings s = checked ⟨a, ds, o⟩ := by
  simp only [ofSettings, checked, hi, hp, hd]
  cases ha : a.validate with
  | error e => rfl
  | ok b =>
    obtain ⟨-, rfl⟩ := PermissionConfig.validate_eq_ok_iff.1 ha
    rfl

theorem value?_of_stands {sec field name : String} (hm : Stands sec field v r ms)
    (hn : Stands sec field w r ns) (hname : name ≠ sec) (hn₀ : name ≠ "")
    (hdot : '.' ∉ name.toList) :
    (⟨some ms⟩ : Settings).value? name = (⟨some ns⟩ : Settings).value? name := by
  rw [value?_of_members hn₀ hdot, value?_of_members hn₀ hdot, hm.sections name hname,
    hn.sections name hname]

theorem ofSettings_of_permissions_field (hms : TidyMembers ms) (hns : TidyMembers ns)
    (hi : PermissionConfig.fields[i]? = some fd)
    (hm : Stands PermissionConfig.sectionKey fd.name v r ms)
    (hn : Stands PermissionConfig.sectionKey fd.name w r ns) (h : ofSettings ⟨some ns⟩ = .ok c) :
    (∀ x a, fd.Decodes (some v) x → a.scalars = c.permissions.scalars.set i x →
      ofSettings ⟨some ms⟩ = checked { c with permissions := a }) ∧
    ((∀ x, ¬ fd.Decodes (some v) x) → ofSettings ⟨some ms⟩ = .error .parse) := by
  obtain ⟨hidentity, hpermissions, hsources⟩ := ofSettings_eq_ok h
  obtain ⟨us, vs, hus, hvs, hsome, hnone⟩ := record?_of_stands PermissionConfig.separate_fields
    (fun _ _ => PermissionConfig.ofScalars_eq_some_iff) hi hms hns hm hn
  have hkey : PermissionConfig.sectionKey ≠ "" ∧ '.' ∉ PermissionConfig.sectionKey.toList := by
    decide
  rw [← value?_of_members hkey.1 hkey.2] at hus hvs
  rw [permissions_of_value hvs] at hpermissions
  have hold : PermissionConfig.ofValue? (.obj vs) = some c.permissions := by
    cases ho : PermissionConfig.ofValue? (.obj vs) with
    | none =>
      rw [ho] at hpermissions
      cases hpermissions
    | some a =>
      rw [ho] at hpermissions
      exact congrArg some (PermissionConfig.validate_eq_ok_iff.1 hpermissions).2
  have hidentity' : (⟨some ms⟩ : Settings).identity? = .ok c.identity := by
    rw [← hidentity]
    exact (sections_congr (value?_of_stands hm hn (by decide) (by decide) (by decide))).1 rfl
  have hsources' : (⟨some ms⟩ : Settings).dataSources = .ok c.dataSources := by
    rw [← hsources]
    exact (sections_congr (value?_of_stands hm hn (by decide) (by decide) (by decide))).2.2 rfl
  constructor
  · intro x a hx ha
    have hnew : PermissionConfig.ofValue? (.obj us) = some a := hsome c.permissions a x hx hold ha
    apply ofSettings_of_parts hidentity' _ hsources'
    rw [permissions_of_value hus, hnew]
  · intro hno
    have hnew : PermissionConfig.ofValue? (.obj us) = none := hnone hno
    simp only [ofSettings, hidentity', permissions_of_value hus, hnew]
    rfl

theorem ofSettings_of_identity_field (hms : TidyMembers ms) (hns : TidyMembers ns)
    (hi : IdentityConfig.fields[i]? = some fd)
    (hm : Stands IdentityConfig.sectionKey fd.name v r ms)
    (hn : Stands IdentityConfig.sectionKey fd.name w r ns) (h : ofSettings ⟨some ns⟩ = .ok c) :
    ∃ b, c.identity = some b ∧
      (∀ x a, fd.Decodes (some v) x → a.scalars = b.scalars.set i x →
        ofSettings ⟨some ms⟩ = checked { c with identity := some a }) ∧
      ((∀ x, ¬ fd.Decodes (some v) x) → ofSettings ⟨some ms⟩ = .error .parse) := by
  obtain ⟨hidentity, hpermissions, hsources⟩ := ofSettings_eq_ok h
  obtain ⟨us, vs, hus, hvs, hsome, hnone⟩ := record?_of_stands IdentityConfig.separate_fields
    (fun _ _ => IdentityConfig.ofScalars_eq_some_iff) hi hms hns hm hn
  have hkey : IdentityConfig.sectionKey ≠ "" ∧ '.' ∉ IdentityConfig.sectionKey.toList := by
    decide
  rw [← value?_of_members hkey.1 hkey.2] at hus hvs
  rw [identity?_of_value hvs] at hidentity
  have hpermissions' : (⟨some ms⟩ : Settings).permissions = c.permissions.validate := by
    rw [validate_of_permissions hpermissions, ← hpermissions]
    exact (sections_congr (value?_of_stands hm hn (by decide) (by decide) (by decide))).2.1 rfl
  have hsources' : (⟨some ms⟩ : Settings).dataSources = .ok c.dataSources := by
    rw [← hsources]
    exact (sections_congr (value?_of_stands hm hn (by decide) (by decide) (by decide))).2.2 rfl
  cases ho : IdentityConfig.ofValue? (.obj vs) with
  | none =>
    rw [ho] at hidentity
    cases hidentity
  | some b =>
    rw [ho] at hidentity
    refine ⟨b, (Except.ok.inj hidentity).symm, ?_, ?_⟩
    · intro x a hx ha
      have hnew : IdentityConfig.ofValue? (.obj us) = some a := hsome b a x hx ho ha
      apply ofSettings_of_parts _ hpermissions' hsources'
      rw [identity?_of_value hus, hnew]
    · intro hno
      have hnew : IdentityConfig.ofValue? (.obj us) = none := hnone hno
      simp only [ofSettings, identity?_of_value hus, hnew]
      rfl

end

end ProgramConfig

namespace TextSetting

variable {f : TextSetting} {v w : Json} {ms ns : Members} {r : Frame} {c : ProgramConfig}

theorem decodes_text_iff {fd : Field} (hk : fd.kind = .text) {x : Scalar} :
    fd.Decodes (some v) x ↔ ∃ t, v = .str t ∧ x = .text t := by
  rw [Field.Decodes, hk]
  cases v <;> simp [reading, Kind.read, eq_comm]

theorem decodes_optionalText_iff {fd : Field} (hk : fd.kind = .optionalText) (hv : v ≠ .null)
    {x : Scalar} : fd.Decodes (some v) x ↔ ∃ t, v = .str t ∧ x = .optionalText (some t) := by
  rw [Field.Decodes, hk]
  cases v with
  | null => exact (hv rfl).elim
  | _ => simp [reading, Kind.read, eq_comm]

theorem ofSettings_of_stands (hms : TidyMembers ms) (hns : TidyMembers ns)
    (hm : Stands f.sectionKey f.fieldName v r ms) (hn : Stands f.sectionKey f.fieldName w r ns)
    (hv : v ≠ .null) (h : ProgramConfig.ofSettings ⟨some ns⟩ = .ok c) :
    (∀ t, v = .str t → ProgramConfig.ofSettings ⟨some ms⟩ = (f.put c t).checked) ∧
      ((∀ t, v ≠ .str t) → ProgramConfig.ofSettings ⟨some ms⟩ = .error .parse) ∧
      ∀ t, f.get? (f.put c t) = some t := by
  cases f with
  | datasource =>
    obtain ⟨hsome, hnone⟩ :=
      ProgramConfig.ofSettings_of_permissions_field hms hns (i := 0) rfl hm hn h
    refine ⟨?_, ?_, fun t => rfl⟩
    · intro t ht
      exact hsome _ _ ((decodes_text_iff rfl).2 ⟨t, ht, rfl⟩) rfl
    · intro hno
      refine hnone fun x hx => ?_
      obtain ⟨t, ht, -⟩ := (decodes_text_iff rfl).1 hx
      exact hno t ht
  | baseUrl =>
    obtain ⟨b, hb, hsome, hnone⟩ :=
      ProgramConfig.ofSettings_of_identity_field hms hns (i := 0) rfl hm hn h
    simp only [put, get?, hb, Option.map_some]
    refine ⟨?_, ?_, fun _ => trivial⟩
    · intro t ht
      exact hsome _ _ ((decodes_text_iff rfl).2 ⟨t, ht, rfl⟩) rfl
    · intro hno
      refine hnone fun x hx => ?_
      obtain ⟨t, ht, -⟩ := (decodes_text_iff rfl).1 hx
      exact hno t ht
  | token =>
    obtain ⟨b, hb, hsome, hnone⟩ :=
      ProgramConfig.ofSettings_of_identity_field hms hns (i := 2) rfl hm hn h
    simp only [put, get?, hb, Option.map_some, Option.bind_some]
    refine ⟨?_, ?_, fun _ => trivial⟩
    · intro t ht
      exact hsome _ _ ((decodes_optionalText_iff rfl hv).2 ⟨t, ht, rfl⟩) rfl
    · intro hno
      refine hnone fun x hx => ?_
      obtain ⟨t, ht, -⟩ := (decodes_optionalText_iff rfl hv).1 hx
      exact hno t ht

theorem checked_put (h : c.permissions.validate = .ok c.permissions) {t : String}
    (ht : Text.trim t ≠ "") : (f.put c t).checked = .ok (f.put c t) := by
  obtain ⟨hf, -⟩ := PermissionConfig.validate_eq_ok_iff.1 h
  have hvalid : (f.put c t).permissions.fault? = none := by
    cases f with
    | datasource =>
      have hne : (Text.trim t).isEmpty = false := by simpa using ht
      simp only [PermissionConfig.fault?] at hf
      split at hf
      · cases hf
      · simp only [put, PermissionConfig.fault?, hne, if_neg Bool.false_ne_true]
        exact hf
    | baseUrl => exact hf
    | token => exact hf
  have hv := PermissionConfig.validate_eq_ok_iff.2 ⟨hvalid, rfl⟩
  rw [ProgramConfig.checked, hv]
  rfl

/-- Variables of which none has a say on a setting. -/
def Unheard (f : TextSetting) (env : Environment) : Prop :=
  ∀ x ∈ env, ∀ path, Environment.path? ProgramConfig.variableStart x.1 = some path →
    ¬ Meets path [f.sectionKey, f.fieldName]

/-- Let some value of a variable give a configuration, where no variable that comes later has a say
on its setting. Then any other value that means a text gives the same but for that text, and one
that means anything else gives none. A value that is not blank arrives unchanged exactly if it has
no blanks at its ends and no meaning of its own. -/
theorem load_of_variable {p : Place} {path : Option String} {before after : Environment}
    {v w : String} (hp : p.environment = before ++ (f.variableName, v) :: after)
    (hafter : f.Unheard after) (hb : ∀ l ∈ ProgramConfig.layers p path, ¬ l.Broken p)
    (hc : ProgramConfig.load
      { p with environment := before ++ (f.variableName, w) :: after } path = .ok c)
    (hv : Text.trim v ≠ "") :
    (∀ t, Literal.parse (Text.trim v) = .str t →
      ProgramConfig.load p path = (f.put c t).checked) ∧
    ((∀ t, Literal.parse (Text.trim v) ≠ .str t) → ProgramConfig.load p path = .error .parse) ∧
    ((∃ d, ProgramConfig.load p path = .ok d ∧ f.get? d = some v) ↔
      Text.trim v = v ∧ ¬ Literal.Special v) := by
  obtain ⟨under, hunder, hload⟩ := ProgramConfig.load_eq hc hb
  obtain ⟨r, hr⟩ := Environment.stands_members before f.path?_variableName hafter
  have htidy (u : String) := tidyMembers_overlayMembers
    (tidyMembers_environment ProgramConfig.variableStart
      (before ++ (f.variableName, u) :: after)) hunder
  have hstands (u : String) := (hr u).overlayMembers_under (tidyMembers_environment _ _) under
  rw [hload] at hc
  obtain ⟨hsome, hnone, hget⟩ := ofSettings_of_stands (htidy v) (htidy w) (hstands v) (hstands w)
    (Literal.parse_ne_null _) hc
  have hplace : { p with environment := before ++ (f.variableName, v) :: after } = p := by rw [← hp]
  rw [← hload, hplace] at hsome hnone
  have hvalid : c.permissions.validate = .ok c.permissions :=
    validate_of_permissions (ofSettings_eq_ok hc).2.1
  refine ⟨hsome, hnone, ?_⟩
  rw [← Literal.parse_trim_eq_iff]
  constructor
  · intro hd
    obtain ⟨d, hd, hdv⟩ := hd
    by_cases ht : ∃ t, Literal.parse (Text.trim v) = .str t
    · obtain ⟨t, ht⟩ := ht
      have hchecked : (f.put c t).checked = .ok d := (hsome t ht).symm.trans hd
      have hput : f.put c t = d := by
        rw [ProgramConfig.checked] at hchecked
        cases hp : (f.put c t).permissions.validate with
        | error e =>
          rw [hp] at hchecked
          cases hchecked
        | ok a =>
          rw [hp] at hchecked
          exact Except.ok.inj hchecked
      rw [← hput, hget, Option.some.injEq] at hdv
      rw [ht, hdv]
    · have herror : ProgramConfig.load p path = .error .parse :=
        hnone fun t h => ht ⟨t, h⟩
      rw [hd] at herror
      cases herror
  · intro h
    exact ⟨f.put c v, (hsome v h).trans (checked_put hvalid hv), hget v⟩

theorem load_of_variable_of_digits :
    let file := File.ofText "identity.base_url = 'https://idp.local/api'"
    let before : Environment := [("PERMCTL_IDENTITY", "\x7btoken=\"other\"\x7d")]
    let load (v : String) := ProgramConfig.load
      ⟨fun _ => some file, before ++ [("PERMCTL_IDENTITY__TOKEN", v)]⟩ (some "permctl.toml")
    token.Unheard [] ∧
      load "sesame" = .ok ⟨.standard, [], some ⟨"https://idp.local/api", 10, some "sesame"⟩⟩ ∧
      load "12345" = .error .parse ∧ Literal.Special "12345" := by
  intro file before load
  let p : Place := ⟨fun _ => some file, before ++ [("PERMCTL_IDENTITY__TOKEN", "12345")]⟩
  have hafter : token.Unheard [] := List.forall_mem_nil _
  have hb : ∀ l ∈ ProgramConfig.layers p (some "permctl.toml"), ¬ l.Broken p := by
    have hread : ∀ l ∈ ProgramConfig.layers p (some "permctl.toml"),
        (l.read p).toOption.map Option.isSome = some true := by decide +kernel
    intro l hl hbroken
    have hsome := hread l hl
    rw [hbroken] at hsome
    cases hsome
  have hc : load "sesame" =
      .ok ⟨.standard, [], some ⟨"https://idp.local/api", 10, some "sesame"⟩⟩ := by
    decide +kernel
  obtain ⟨-, hnone, hkept⟩ :=
    load_of_variable (f := token) (p := p) rfl hafter hb hc (by decide)
  have hmeans : Literal.parse (Text.trim "12345") = .int 12345 := rfl
  have herror : load "12345" = .error .parse := hnone fun t ht => by
    rw [hmeans] at ht
    cases ht
  refine ⟨hafter, hc, herror, ?_⟩
  by_contra hspecial
  obtain ⟨d, hd, -⟩ := hkept.2 ⟨by decide, hspecial⟩
  have hboth := herror.symm.trans hd
  cases hboth

/-- Of four tokens that are not blank the first arrives, the second is not loaded, and the others
arrive without their quotes and without their blank. -/
theorem tokens_change :
    let file := File.ofText "identity.base_url = 'https://idp.local/api'"
    let load (t : String) := ProgramConfig.load
      ⟨fun _ => some file, [("PERMCTL_IDENTITY__TOKEN", t)]⟩ (some "permctl.toml")
    let loaded : ProgramConfig := ⟨.standard, [], some ⟨"https://idp.local/api", 10, some "sesame"⟩⟩
    load "sesame" = .ok loaded ∧ load "12345" = .error .parse ∧ load "\"sesame\"" = .ok loaded ∧
      load " sesame" = .ok loaded := by
  decide +kernel

end TextSetting

end AccessControl
