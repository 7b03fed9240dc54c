import AccessControl.Program.Invocation

/-!
# What a command line orders

The words behind the name of a command write values for its options, each in the word of its option
or in the word after it. A line that is accepted orders one operation on the values written in it.
-/

namespace AccessControl

open Program

inductive Verb.Writes (v : Verb) : List String → List (String × String) → Prop
  | done : Writes v [] []
  | separator {w : String} (hw : Word.ofString w = .separator) : Writes v [w] []
  | attached {w name text : String} {ws : List String} {vs : List (String × String)}
      (hw : Word.ofString w = .long name (some text)) (hn : name ∈ v.valueNames)
      (h : Writes v ws vs) : Writes v (w :: ws) ((name, text) :: vs)
  | next {w name text : String} {ws : List String} {vs : List (String × String)}
      (hw : Word.ofString w = .long name none) (hn : name ∈ v.valueNames)
      (ht : Word.ofString text = .plain) (h : Writes v ws vs) :
    Writes v (w :: text :: ws) ((name, text) :: vs)

namespace Program

variable {v : Verb} {g g₁ g₂ : Given} {p : Parameter} {ws rest : List String} {w name text : String}

namespace Given

theorem values_of_record (h : g.record p text = .ok g₁) :
    g₁.values = g.values ++ [(p.name, text)] := by
  obtain ⟨-, -, rfl⟩ := record_eq_ok_iff.1 h
  rfl

theorem settle_of_awaiting (h : g.awaiting? = some p) (g' : Given) : g.settle ≠ .ok g' := by
  intro hg'
  unfold awaiting? at h
  split at h
  · rename_i hg
    rw [settle, hg] at hg'
    cases hg'
  · cases h

theorem nodup_of_record (h : g.record p text = .ok g₁) (hg : (g.values.map (·.1)).Nodup) :
    (g₁.values.map (·.1)).Nodup := by
  obtain ⟨hfresh, -, -⟩ := record_eq_ok_iff.1 h
  simp only [has, get?, Option.isSome_map, Bool.eq_false_iff, ne_eq, List.find?_isSome,
    decide_eq_true_eq, not_exists, not_and] at hfresh
  rw [values_of_record h, List.map_append, List.map_singleton, List.nodup_append]
  refine ⟨hg, by simp, ?_⟩
  intro n hn m hm
  obtain ⟨y, hy, rfl⟩ := List.mem_map.1 hn
  rw [List.mem_singleton.1 hm]
  exact hfresh y hy

theorem mem_of_get? (h : g.get? name = some text) : (name, text) ∈ g.values := by
  obtain ⟨y, hy, rfl⟩ := Option.map_eq_some_iff.1 h
  have hname : y.1 = name := by simpa using List.find?_some hy
  subst hname
  exact List.mem_of_find?_eq_some hy

theorem not_mem_of_get? (h : g.get? name = none) (text : String) : (name, text) ∉ g.values := by
  intro hmem
  have hnone := List.find?_eq_none.1 (Option.map_eq_none_iff.1 h) _ hmem
  exact hnone (decide_eq_true rfl)

/-- The options given in the end are those that were settled before, and then what words write. -/
def Gains (v : Verb) (g : Given) (ws : List String) (g₂ : Given) : Prop :=
  ∃ g₀ vs, g.settle = .ok g₀ ∧ v.Writes ws vs ∧ g₂.values = g₀.values ++ vs ∧
    ((g₀.values.map (·.1)).Nodup → (g₂.values.map (·.1)).Nodup)

theorem Gains.done (h : g.settle = .ok g₂) (hws : v.Writes ws []) : Gains v g ws g₂ :=
  ⟨g₂, [], h, hws, (List.append_nil _).symm, id⟩

theorem Gains.cons {g₀ g' : Given} {us : List String} (p : Parameter) (text : String)
    (hg₀ : g.settle = .ok g₀) (hrecord : g₀.record p text = g'.settle)
    (hw : ∀ vs, v.Writes us vs → v.Writes ws ((p.name, text) :: vs)) (h : Gains v g' us g₂) :
    Gains v g ws g₂ := by
  obtain ⟨g₃, vs, hg₃, hwrites, hvalues, hnodup⟩ := h
  rw [hg₃] at hrecord
  refine ⟨g₀, _, hg₀, hw vs hwrites, ?_, ?_⟩
  · rw [hvalues, values_of_record hrecord, List.append_assoc]
    rfl
  · intro h
    exact hnodup (nodup_of_record hrecord h)

end Given

end Program

namespace Command

variable {v : Verb} {k : Command} {g : Given} {ws : List String}

end Command

namespace Invocation

end Invocation

end AccessControl
