import AccessControl.Proofs.Program.CommandLine
import Mathlib.Data.List.Nodup
import Mathlib.Data.List.Perm.Subperm

/-!
# Command lines written out

An invocation is written as the options of the program, the name of the command and the options of
the command, in any order on either side. However it is written it reads back as it is, and a line
that leaves out an option that the command requires is refused.
-/

namespace AccessControl

open Program

namespace Program

def StandsAlone (text : String) : Prop := text.toList.head? ≠ some '-'

instance (text : String) : Decidable (StandsAlone text) := inferInstanceAs (Decidable (_ ≠ _))

inductive Parameter.Spells (p : Parameter) : String → List String → Prop
  | attached {text : String} (hp : p.takesValue = true) :
    Spells p text ["--" ++ p.name ++ "=" ++ text]
  | next {text : String} (hp : p.takesValue = true) (ht : StandsAlone text) :
    Spells p text ["--" ++ p.name, text]
  | letterAttached {text : String} {c : Char} (hc : p.letter = some c) (hp : p.takesValue = true) :
    Spells p text [String.ofList ('-' :: c :: '=' :: text.toList)]
  | letterJoined {text : String} {c : Char} (hc : p.letter = some c) (hp : p.takesValue = true)
      (ht : text ≠ "" ∧ text.toList.head? ≠ some '=') :
    Spells p text [String.ofList ('-' :: c :: text.toList)]
  | letterNext {text : String} {c : Char} (hc : p.letter = some c) (hp : p.takesValue = true)
      (ht : StandsAlone text) : Spells p text [String.ofList ['-', c], text]
  | flag (hp : p.form = .flag) : Spells p "true" ["--" ++ p.name]
  | letterFlag {c : Char} (hc : p.letter = some c) (hp : p.form = .flag) :
    Spells p "true" [String.ofList ['-', c]]

inductive Spelling : List (Parameter × String) → List String → Prop
  | nil : Spelling [] []
  | cons {p : Parameter} {text : String} {ws us : List String} {os : List (Parameter × String)}
      (h : p.Spells text ws) (hs : Spelling os us) : Spelling ((p, text) :: os) (ws ++ us)

/-- A parameter that is found by its name and by its letter, and whose name can be told apart from
what surrounds it in a word. -/
structure Parameter.Known (ps : List Parameter) (p : Parameter) : Prop where
  byName : (ps.find? fun q => q.name = p.name) = some p
  byLetter : ∀ c, p.letter = some c → (ps.find? fun q => q.letter = some c) = some p ∧ c ≠ '-'
  named : p.name.toList ≠ [] ∧ '=' ∉ p.name.toList

end Program

namespace Verb

def required : Verb → List String
  | .add | .delete | .revoke | .roles => ["resource", "action"]
  | .grant => ["resource", "action", "role-id"]
  | .check => ["resource", "action", "user"]

end Verb

namespace Command

def valueParameter (name : String) : Parameter := ⟨name, none, .value true⟩

def values (k : Command) : List (String × String) :=
  [("resource", k.permission.resource), ("action", k.permission.action)] ++
  match k with
  | .grant _ id name => ("role-id", id) :: name.toList.map fun name => ("role-name", name)
  | .revoke _ id => id.toList.map fun id => ("role-id", id)
  | .check _ user => [("user", user)]
  | _ => []

def options (k : Command) : List (Parameter × String) :=
  k.values.map fun v => (valueParameter v.1, v.2)

end Command

namespace Invocation

def flagParameter (name : String) (letter : Option Char) : Parameter := ⟨name, letter, .flag⟩

def options (i : Invocation) : List (Parameter × String) :=
  (i.config.toList.map fun path => (configParameter, path)) ++
  (if i.verbose then [(flagParameter "verbose" (some 'v'), "true")] else []) ++
  (if i.jsonLogs then [(flagParameter "json-logs" none, "true")] else []) ++
  (if i.json then [(flagParameter "json" none, "true")] else [])

/-- A line that writes an invocation with these options for its command. -/
def Renders (i : Invocation) (os : List (Parameter × String)) (words : List String) : Prop :=
  ∃ gs ws us, gs.Perm i.options ∧ Spelling gs ws ∧ Spelling os us ∧
    words = ws ++ i.command.verb.name :: us

end Invocation

namespace Program

variable {p : Parameter} {name text w : String} {c : Char} {cs : List Char} {ps : List Parameter}
  {commands ws us rest : List String} {g : Given} {vs : List (String × String)}
  {os : List (Parameter × String)}

theorem ofString_of_standsAlone (h : StandsAlone text) : Word.ofString text = .plain := by
  rw [StandsAlone] at h
  unfold Word.ofString
  split <;> simp_all

theorem cut_name (hn : '=' ∉ name.toList) (cs : List Char) :
    (name.toList ++ cs).takeWhile (· != '=') = name.toList ++ cs.takeWhile (· != '=') ∧
      (name.toList ++ cs).dropWhile (· != '=') = cs.dropWhile (· != '=') := by
  have hall : ∀ c ∈ name.toList, (c != '=') = true := by
    intro c hc
    rw [bne_iff_ne]
    rintro rfl
    exact hn hc
  exact ⟨List.takeWhile_append_of_pos hall, List.dropWhile_append_of_pos hall⟩

theorem ofString_dashes (hw : w.toList = '-' :: '-' :: cs) (hcs : cs ≠ []) :
    Word.ofString w =
      .long (String.ofList (cs.takeWhile (· != '=')))
        ((cs.dropWhile (· != '=')).tail?.map String.ofList) := by
  obtain ⟨c, cs, rfl⟩ := List.exists_cons_of_ne_nil hcs
  simp only [Word.ofString, hw]
  cases (c :: cs).dropWhile (· != '=') <;> rfl

theorem ofString_long (hn : name.toList ≠ [] ∧ '=' ∉ name.toList) :
    Word.ofString ("--" ++ name) = .long name none := by
  obtain ⟨ht, hd⟩ := cut_name hn.2 []
  rw [List.append_nil] at ht hd
  rw [ofString_dashes (by simp) hn.1, hd, ht]
  simp

theorem ofString_longAttached (hn : name.toList ≠ [] ∧ '=' ∉ name.toList) (text : String) :
    Word.ofString ("--" ++ name ++ "=" ++ text) = .long name (some text) := by
  obtain ⟨ht, hd⟩ := cut_name hn.2 ('=' :: text.toList)
  have hw : ("--" ++ name ++ "=" ++ text).toList =
      '-' :: '-' :: (name.toList ++ '=' :: text.toList) := by simp
  rw [ofString_dashes hw (by simp), hd, ht]
  simp

theorem ofString_letters (hc : c ≠ '-') (cs : List Char) :
    Word.ofString (String.ofList ('-' :: c :: cs)) = .letters (c :: cs) := by
  simp only [Word.ofString, String.toList_ofList]
  split <;> simp_all

namespace Given

/-- The options given so far, with the value that was met last among them. -/
def Holds (g : Given) (vs : List (String × String)) : Prop := g.settle = .ok ⟨vs, none⟩

theorem Holds.awaiting? (h : g.Holds vs) : g.awaiting? = none := by
  cases ha : g.awaiting? with
  | none => rfl
  | some p => exact absurd h (settle_of_awaiting ha _)

theorem get?_eq_none_iff : g.get? name = none ↔ name ∉ g.values.map (·.1) := by
  simp only [get?, Option.map_eq_none_iff, List.find?_eq_none, decide_eq_true_eq, List.mem_map,
    not_exists, not_and]

theorem record_fresh (hfresh : p.name ∉ vs.map (·.1)) (ha : p.accepts text = true) :
    Given.record p text ⟨vs, none⟩ = .ok ⟨vs ++ [(p.name, text)], none⟩ := by
  refine record_eq_ok_iff.2 ⟨?_, ha, rfl⟩
  rw [has, get?_eq_none_iff.2 hfresh, Option.isSome_none]

theorem exists_form (hp : p.takesValue = true) : ∃ mayBeEmpty, p.form = .value mayBeEmpty := by
  cases hf : p.form with
  | value mayBeEmpty => exact ⟨mayBeEmpty, rfl⟩
  | flag | help | version => simp [Parameter.takesValue, hf] at hp

theorem meet_attached (h : g.Holds vs) (hp : p.takesValue = true) (text : String) :
    g.meet p (some text) = Given.record p text ⟨vs, none⟩ := by
  obtain ⟨mayBeEmpty, hf⟩ := exists_form hp
  rw [Holds] at h
  simp only [meet, h, hf]
  rfl

theorem meet_bare (h : g.Holds vs) (hp : p.takesValue = true) :
    g.meet p none = .ok ⟨vs, some (p, none)⟩ := by
  obtain ⟨mayBeEmpty, hf⟩ := exists_form hp
  rw [Holds] at h
  simp only [meet, h, hf]
  rfl

theorem meet_flag (h : g.Holds vs) (hp : p.form = .flag) :
    g.meet p none = Given.record p "true" ⟨vs, none⟩ := by
  rw [Holds] at h
  simp only [meet, h, hp]
  rfl

theorem not_mem_commands (hc : ∀ w ∈ commands, StandsAlone w) (hw : Word.ofString w ≠ .plain) :
    commands.contains w = false := by
  rw [List.contains_eq_mem, decide_eq_false_iff_not]
  intro hmem
  exact hw (ofString_of_standsAlone (hc w hmem))

theorem scan_long {attached : Option String} (hc : ∀ w ∈ commands, StandsAlone w)
    (hw : Word.ofString w = .long p.name attached) (hk : p.Known ps)
    (hattached : attached.isSome = true → p.takesValue = true) (rest : List String) :
    g.scan ps commands (w :: rest) = g.meet p attached >>= fun g => g.scan ps commands rest := by
  have hno := not_mem_commands hc (w := w) (by simp [hw])
  have hsurplus : (attached.isSome && !p.takesValue) = false := by
    cases h : attached.isSome
    · rfl
    · simp [hattached h]
  rw [scan.eq_def]
  simp only [hno, hw, hk.byName, hsurplus, Bool.and_false, Bool.false_eq_true, ↓reduceIte]

theorem scan_letters {c : Char} (hc : ∀ w ∈ commands, StandsAlone w)
    (hw : Word.ofString w = .letters (c :: cs)) (rest : List String) :
    g.scan ps commands (w :: rest) =
      g.meetLetters ps (c :: cs) >>= fun g => g.scan ps commands rest := by
  have hno := not_mem_commands hc (w := w) (by simp [hw])
  rw [scan.eq_def]
  simp only [hno, hw, Bool.and_false, Bool.false_eq_true, ↓reduceIte]

theorem scan_value (ht : StandsAlone text) (rest : List String) :
    scan ps commands ⟨vs, some (p, none)⟩ (text :: rest) =
      scan ps commands ⟨vs, some (p, some text)⟩ rest := by
  rw [scan.eq_def]
  simp [awaiting?, ofString_of_standsAlone ht]

theorem meetLetters_value (hk : p.Known ps) (hl : p.letter = some c) (hp : p.takesValue = true) :
    (g.meetLetters ps [c] = g.meet p none) ∧
      (∀ text : List Char, g.meetLetters ps (c :: '=' :: text) =
        g.meet p (some (String.ofList text))) ∧
      ∀ (d : Char) (text : List Char), d ≠ '=' →
        g.meetLetters ps (c :: d :: text) = g.meet p (some (String.ofList (d :: text))) := by
  refine ⟨?_, ?_, ?_⟩
  · simp [meetLetters, (hk.byLetter c hl).1, hp]
  · intro text
    simp [meetLetters, (hk.byLetter c hl).1, hp]
  · intro d text hd
    simp only [meetLetters, (hk.byLetter c hl).1, hp, ↓reduceIte]
    split <;> simp_all

theorem meetLetters_flag (hk : p.Known ps) (hl : p.letter = some c) (hp : p.form = .flag) :
    g.meetLetters ps [c] = g.meet p none := by
  simp only [meetLetters, (hk.byLetter c hl).1, Parameter.takesValue, hp, Bool.false_eq_true,
    ↓reduceIte]
  cases g.meet p none <;> rfl

theorem scan_spells (hc : ∀ w ∈ commands, StandsAlone w)
    (hk : p.Known ps) (hs : p.Spells text ws) (hg : g.Holds vs)
    (hfresh : p.name ∉ vs.map (·.1)) (ha : p.accepts text = true) (rest : List String) :
    ∃ g' : Given, g.scan ps commands (ws ++ rest) = g'.scan ps commands rest ∧
      g'.Holds (vs ++ [(p.name, text)]) := by
  have hrecord := record_fresh hfresh ha
  cases hs with
  | attached hp =>
    refine ⟨⟨vs ++ [(p.name, text)], none⟩, ?_, rfl⟩
    rw [List.singleton_append, scan_long hc (ofString_longAttached hk.named text) hk fun _ => hp,
      meet_attached hg hp, hrecord]
    rfl
  | next hp ht =>
    refine ⟨⟨vs, some (p, some text)⟩, ?_, hrecord⟩
    rw [List.cons_append, List.singleton_append,
      scan_long hc (ofString_long hk.named) hk (by simp), meet_bare hg hp]
    exact scan_value ht rest
  | @letterAttached _ c hl hp =>
    refine ⟨⟨vs ++ [(p.name, text)], none⟩, ?_, rfl⟩
    rw [List.singleton_append, scan_letters hc (ofString_letters (hk.byLetter c hl).2 _),
      (meetLetters_value hk hl hp).2.1, String.ofList_toList, meet_attached hg hp, hrecord]
    rfl
  | @letterJoined _ c hl hp ht =>
    obtain ⟨d, cs, hcs⟩ := List.exists_cons_of_ne_nil (mt String.toList_eq_nil_iff.1 ht.1)
    have hd : d ≠ '=' := by simpa [hcs] using ht.2
    refine ⟨⟨vs ++ [(p.name, text)], none⟩, ?_, rfl⟩
    rw [List.singleton_append, scan_letters hc (ofString_letters (hk.byLetter c hl).2 _), hcs,
      (meetLetters_value hk hl hp).2.2 d cs hd, ← hcs, String.ofList_toList, meet_attached hg hp,
      hrecord]
    rfl
  | @letterNext _ c hl hp ht =>
    refine ⟨⟨vs, some (p, some text)⟩, ?_, hrecord⟩
    rw [List.cons_append, List.singleton_append,
      scan_letters hc (ofString_letters (hk.byLetter c hl).2 _), (meetLetters_value hk hl hp).1,
      meet_bare hg hp]
    exact scan_value ht rest
  | flag hp =>
    refine ⟨⟨vs ++ [(p.name, "true")], none⟩, ?_, rfl⟩
    rw [List.singleton_append, scan_long hc (ofString_long hk.named) hk (by simp),
      meet_flag hg hp, hrecord]
    rfl
  | @letterFlag c hl hp =>
    refine ⟨⟨vs ++ [(p.name, "true")], none⟩, ?_, rfl⟩
    rw [List.singleton_append, scan_letters hc (ofString_letters (hk.byLetter c hl).2 _),
      meetLetters_flag hk hl hp, meet_flag hg hp, hrecord]
    rfl

def valuesOf (os : List (Parameter × String)) : List (String × String) :=
  os.map fun o => (o.1.name, o.2)

theorem scan_spelling (hc : ∀ w ∈ commands, StandsAlone w) (hs : Spelling os ws)
    (hk : ∀ o ∈ os, o.1.Known ps ∧ o.1.accepts o.2 = true)
    (hnodup : (vs ++ valuesOf os).map (·.1) |>.Nodup) (hg : g.Holds vs) (rest : List String) :
    ∃ g' : Given, g.scan ps commands (ws ++ rest) = g'.scan ps commands rest ∧
      g'.Holds (vs ++ valuesOf os) := by
  induction hs generalizing g vs with
  | nil => exact ⟨g, rfl, by simpa [valuesOf] using hg⟩
  | @cons p text ws us os h hs ih =>
    have hsplit : vs ++ valuesOf ((p, text) :: os) = vs ++ [(p.name, text)] ++ valuesOf os := by
      simp [valuesOf]
    rw [hsplit] at hnodup ⊢
    obtain ⟨hp, ha⟩ := hk _ List.mem_cons_self
    have hfresh : p.name ∉ vs.map (·.1) := by
      rw [List.map_append, List.map_append] at hnodup
      have hleft := (List.nodup_append.1 hnodup).1
      intro hmem
      exact (List.nodup_append.1 hleft).2.2 _ hmem p.name (by simp) rfl
    obtain ⟨g₁, hscan, hg₁⟩ := scan_spells hc hp h hg hfresh ha (us ++ rest)
    obtain ⟨g₂, hscan₂, hg₂⟩ := ih (fun o ho => hk o (List.mem_cons_of_mem _ ho)) hnodup hg₁
    exact ⟨g₂, by rw [List.append_assoc, hscan, hscan₂], hg₂⟩

theorem scan_options (hc : ∀ w ∈ commands, StandsAlone w) (hs : Spelling os ws)
    (hk : ∀ o ∈ os, o.1.Known ps ∧ o.1.accepts o.2 = true)
    (hnodup : ((valuesOf os).map (·.1)).Nodup) (rest : List String) :
    ∃ g : Given, empty.scan ps commands (ws ++ rest) = g.scan ps commands rest ∧
      g.Holds (valuesOf os) :=
  scan_spelling hc hs hk hnodup (show empty.Holds [] from rfl) rest

theorem get?_eq_some_iff (hnodup : (g.values.map (·.1)).Nodup) :
    g.get? name = some text ↔ (name, text) ∈ g.values := by
  refine ⟨mem_of_get?, fun hmem => ?_⟩
  cases h : g.get? name with
  | none => exact absurd hmem (not_mem_of_get? h text)
  | some text' =>
    have heq := List.inj_on_of_nodup_map hnodup (mem_of_get? h) hmem rfl
    exact congrArg (fun v => some v.2) heq

theorem get?_of_perm {g' : Given} (hnodup : (g.values.map (·.1)).Nodup)
    (h : g.values.Perm g'.values) : g.get? = g'.get? := by
  funext name
  ext text
  rw [get?_eq_some_iff hnodup, get?_eq_some_iff ((h.map _).nodup_iff.1 hnodup), h.mem_iff]

end Given

end Program

namespace Command

variable {v : Verb} {k : Command} {os : List (Parameter × String)} {ws : List String}

theorem known_valueParameter {name : String} (h : name ∈ v.valueNames) :
    (valueParameter name).Known v.parameters := by
  refine ⟨?_, fun c hc => (Option.some_ne_none c hc.symm).elim, ?_⟩ <;>
    cases v <;> simp only [Verb.valueNames, List.mem_cons, List.not_mem_nil, or_false] at h <;>
    rcases h with rfl | rfl | rfl | rfl <;> decide

theorem values_sublist (k : Command) : (k.values.map (·.1)).Sublist k.verb.valueNames := by
  cases k with
  | grant p id name => cases name <;> simp [values, verb, Verb.valueNames]
  | revoke p id => cases id <;> simp [values, verb, Verb.valueNames]
  | _ => exact List.Sublist.refl _

theorem nodup_values (k : Command) : (k.values.map (·.1)).Nodup := by
  refine (values_sublist k).nodup ?_
  cases k.verb <;> simp [Verb.valueNames]

theorem valuesOf_options (k : Command) : Given.valuesOf k.options = k.values := by
  rw [Given.valuesOf, options, List.map_map]
  exact List.map_id _

theorem ofValues?_values (k : Command) :
    ofValues? k.verb (Given.get? ⟨k.values, none⟩) = some k := by
  cases k with
  | grant p id name => cases name <;> rfl
  | revoke p id => cases id <;> rfl
  | _ => rfl

theorem ofValues?_of_missing {value? : String → Option String} {name : String}
    (hname : name ∈ v.required) (h : value? name = none) : ofValues? v value? = none := by
  cases v <;> simp only [Verb.required, List.mem_cons, List.not_mem_nil, or_false] at hname <;>
    rcases hname with rfl | rfl | rfl <;> simp [ofValues?, h]

theorem parse_of_spelling (hs : Spelling os ws) (hos : os.Subperm k.options) :
    parse k.verb ws =
      (ofValues? k.verb (Given.get? ⟨Given.valuesOf os, none⟩)).elim (.error .missingArgument)
        .ok := by
  have hknown : ∀ o ∈ os, o.1.Known k.verb.parameters ∧ o.1.accepts o.2 = true := by
    intro o ho
    obtain ⟨v, hv, rfl⟩ := List.mem_map.1 (hos.subset ho)
    exact ⟨known_valueParameter ((values_sublist k).subset (List.mem_map_of_mem hv)), rfl⟩
  have hnodup : ((Given.valuesOf os).map Prod.fst).Nodup := by
    obtain ⟨os', hperm, hsub⟩ := hos
    have hnodup := (valuesOf_options k).symm ▸ nodup_values k
    exact ((hperm.map _).map _).nodup_iff.1 (((hsub.map _).map _).nodup hnodup)
  have hcommands : ∀ w ∈ ([] : List String), StandsAlone w := nofun
  obtain ⟨g, hscan, hg⟩ := Given.scan_options hcommands hs hknown hnodup []
  rw [Given.Holds] at hg
  rw [List.append_nil, Given.scan] at hscan
  simp only [parse, hscan, bind, Except.bind, hg]
  cases ofValues? k.verb (Given.get? ⟨Given.valuesOf os, none⟩) <;> rfl

theorem parse_of_perm (hs : Spelling os ws) (hos : os.Perm k.options) :
    parse k.verb ws = .ok k := by
  have hvalues : (Given.valuesOf os).Perm k.values := valuesOf_options k ▸ hos.map _
  have hnodup := (hvalues.map Prod.fst).nodup_iff.2 (nodup_values k)
  have hget : Given.get? ⟨Given.valuesOf os, none⟩ = Given.get? ⟨k.values, none⟩ :=
    Given.get?_of_perm hnodup hvalues
  rw [parse_of_spelling hs hos.subperm, hget, ofValues?_values, Option.elim_some]

theorem parse_of_missing {name : String} (hs : Spelling os ws) (hos : os.Subperm k.options)
    (hname : name ∈ k.verb.required) (hmissing : name ∉ os.map fun o => o.1.name) :
    parse k.verb ws = .error .missingArgument := by
  have hnone : Given.get? ⟨Given.valuesOf os, none⟩ name = none := by
    rw [Given.get?_eq_none_iff]
    simpa [Given.valuesOf] using hmissing
  rw [parse_of_spelling hs hos, ofValues?_of_missing hname hnone, Option.elim_none]

end Command

namespace Invocation

variable {i : Invocation} {gs os : List (Parameter × String)} {ws us : List String}

theorem nodup_options (i : Invocation) : ((Given.valuesOf i.options).map Prod.fst).Nodup := by
  obtain ⟨config, verbose, jsonLogs, json, k⟩ := i
  cases config <;> cases verbose <;> cases jsonLogs <;> cases json <;>
    simp [options, Given.valuesOf, configParameter, flagParameter]

theorem known_parameter {p : Parameter}
    (h : p ∈ [configParameter, flagParameter "verbose" (some 'v'), flagParameter "json-logs" none,
      flagParameter "json" none]) : p.Known parameters := by
  simp only [List.mem_cons, List.not_mem_nil, or_false] at h
  rcases h with rfl | rfl | rfl | rfl
  all_goals
    refine ⟨by decide, fun c hc => ?_, by decide⟩
    cases hc
    try decide

theorem known_options {o : Parameter × String} (hconfig : i.config ≠ some "") (ho : o ∈ i.options) :
    o.1.Known parameters ∧ o.1.accepts o.2 = true := by
  simp only [options, List.mem_append, List.mem_map, Option.mem_toList] at ho
  rcases ho with ((⟨path, hpath, rfl⟩ | ho) | ho) | ho
  · refine ⟨known_parameter (by simp), ?_⟩
    have hne : path ≠ "" := by
      rintro rfl
      exact hconfig hpath
    simpa [configParameter, Parameter.accepts] using hne
  all_goals
    have hif : ∀ {b : Bool} {x : Parameter × String}, o ∈ (if b then [x] else []) → o = x := by
      intro b x h
      cases b
      · cases h
      · exact List.mem_singleton.1 h
    rw [hif ho]
    exact ⟨known_parameter (by simp), rfl⟩

theorem get?_options (i : Invocation) :
    let given : Given := ⟨Given.valuesOf i.options, none⟩
    given.get? configParameter.name = i.config ∧ given.has "verbose" = i.verbose ∧
      given.has "json-logs" = i.jsonLogs ∧ given.has "json" = i.json := by
  obtain ⟨config, verbose, jsonLogs, json, k⟩ := i
  cases config <;> cases verbose <;> cases jsonLogs <;> cases json <;> exact ⟨rfl, rfl, rfl, rfl⟩

theorem parse_of_spelling (hconfig : i.config ≠ some "") (hgs : gs.Perm i.options)
    (hs : Spelling gs ws) (v : Verb) (us : List String) :
    parse none (ws ++ v.name :: us) =
      (Command.parse v us).map fun k => { i with command := k } := by
  have hnodup : ((Given.valuesOf gs).map Prod.fst).Nodup :=
    ((hgs.map _).map _).nodup_iff.2 (nodup_options i)
  have hcommands : ∀ w ∈ commandWords, StandsAlone w := by decide
  obtain ⟨g, hscan, hg⟩ := Given.scan_options hcommands hs
    (fun o ho => known_options hconfig (hgs.mem_iff.1 ho)) hnodup (v.name :: us)
  have hverb : g.scan parameters commandWords (v.name :: us) = .ok (g, v.name :: us) := by
    have hmem : commandWords.contains v.name = true := by cases v <;> decide
    simp only [Given.scan, hg.awaiting?, hmem, Option.isNone_none, Bool.and_self, ↓reduceIte]
  have hget : Given.get? ⟨Given.valuesOf gs, none⟩ = Given.get? ⟨Given.valuesOf i.options, none⟩ :=
    Given.get?_of_perm hnodup (hgs.map _)
  obtain ⟨hc, hv, hl, hj⟩ := get?_options i
  rw [Given.Holds] at hg
  rw [hverb] at hscan
  simp only [parse, hscan, bind, Except.bind, command?, Verb.ofName?_name, hg]
  cases Command.parse v us with
  | error e => rfl
  | ok k =>
    simp only [Given.has] at hv hl hj
    simp only [Except.map, withFallback, Given.has, hget, hc, hv, hl, hj]

/-- A line that writes an invocation is read as it, and one that leaves out an option which the
command requires is refused. -/
theorem parse_of_renders (i : Invocation) (hconfig : i.config ≠ some "")
    (os : List (Parameter × String)) (words : List String) (h : i.Renders os words) :
    (os.Perm i.command.options → parse none words = .ok i) ∧
      (os.Subperm i.command.options →
        ∀ name ∈ i.command.verb.required, (name ∉ os.map fun o => o.1.name) →
          parse none words = .error .missingArgument) := by
  obtain ⟨gs, ws, us, hgs, hws, hus, rfl⟩ := h
  rw [parse_of_spelling hconfig hgs hws]
  refine ⟨fun hos => ?_, fun hos name hname hmissing => ?_⟩
  · rw [Command.parse_of_perm hus hos]
    rfl
  · rw [Command.parse_of_missing hus hos hname hmissing]
    rfl

theorem parse_of_renders_lookalikes :
    let grant : Invocation :=
      ⟨some "grant", true, false, true, .grant ⟨"", "--role-id=x"⟩ "grant" (some "a b=c")⟩
    parse none ["--json", "-cgrant", "-v", "grant", "--role-name", "a b=c", "--action=--role-id=x",
        "--role-id", "grant", "--resource", ""] = .ok grant ∧
      parse none ["-v", "--config", "grant", "--json", "grant", "--action=--role-id=x",
        "--resource="] = .error .missingArgument := by
  intro grant
  have hwhole : grant.Renders
      [(Command.valueParameter "role-name", "a b=c"),
        (Command.valueParameter "action", "--role-id=x"),
        (Command.valueParameter "role-id", "grant"), (Command.valueParameter "resource", "")]
      ["--json", "-cgrant", "-v", "grant", "--role-name", "a b=c", "--action=--role-id=x",
        "--role-id", "grant", "--resource", ""] :=
    ⟨[(flagParameter "json" none, "true"), (configParameter, "grant"),
        (flagParameter "verbose" (some 'v'), "true")], ["--json", "-cgrant", "-v"], _, by decide,
      .cons (.flag rfl) (.cons (.letterJoined rfl rfl (by decide))
        (.cons (.letterFlag rfl rfl) .nil)),
      .cons (.next rfl (by decide)) (.cons (.attached rfl) (.cons (.next rfl (by decide))
        (.cons (.next rfl (by decide)) .nil))), rfl⟩
  have hpart : grant.Renders
      [(Command.valueParameter "action", "--role-id=x"), (Command.valueParameter "resource", "")]
      ["-v", "--config", "grant", "--json", "grant", "--action=--role-id=x", "--resource="] :=
    ⟨[(flagParameter "verbose" (some 'v'), "true"), (configParameter, "grant"),
        (flagParameter "json" none, "true")], ["-v", "--config", "grant", "--json"], _, by decide,
      .cons (.letterFlag rfl rfl) (.cons (.next rfl (by decide)) (.cons (.flag rfl) .nil)),
      .cons (.attached rfl) (.cons (.attached rfl) .nil), rfl⟩
  exact ⟨(parse_of_renders grant (by decide) _ _ hwhole).1 (by decide),
    (parse_of_renders grant (by decide) _ _ hpart).2 (by decide) "role-id" (by decide) (by decide)⟩

end Invocation

end AccessControl
