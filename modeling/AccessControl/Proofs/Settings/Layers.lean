import AccessControl.Proofs.Settings.Toml
import AccessControl.Proofs.Settings.Yaml
import AccessControl.Settings.Layer

/-!
# Tidy layers

Every layer that is read is tidy, whatever its format is.
-/

namespace AccessControl.Settings

open Json

namespace Literal

theorem tidy_integer? {cs : List Char} {v : Json} (h : integer? cs = some v) : v.Tidy := by
  simp only [integer?] at h
  split at h <;> split at h
  · split at h <;> cases h
    exact .leaf (by simp)
  · cases h
  · split at h <;> cases h
    exact .leaf (by simp)
  · cases h

theorem tidy_bare (cs : List Char) : (bare cs).Tidy := by
  simp only [bare]
  cases hv : (if cs.contains '.' then (Decimal.number? cs).map Json.float else none).or
      (integer? cs) with
  | none => exact .leaf (by simp)
  | some v =>
    rw [Option.getD_some]
    rcases Option.or_eq_some_iff.1 hv with hv | ⟨-, hv⟩
    · split at hv
      · obtain ⟨x, -, rfl⟩ := Option.map_eq_some_iff.1 hv
        exact .leaf (by simp)
      · cases hv
    · exact tidy_integer? hv

theorem tidy_value (fuel : Nat) :
    (∀ {cs v r}, value fuel cs = some (v, r) → v.Tidy) ∧
      ∀ {done cs ms r}, (∀ m ∈ done, m.2.Tidy) → members fuel done cs = some (ms, r) →
        ∀ m ∈ ms, m.2.Tidy := by
  induction fuel with
  | zero =>
    refine ⟨fun h => ?_, fun _ h => ?_⟩
    · simp [value] at h
    · simp [members] at h
  | succ fuel ih =>
    obtain ⟨ihv, ihm⟩ := ih
    constructor
    · intro cs v r h
      simp only [value] at h
      split at h
      · cases h
        exact .leaf (by simp)
      · cases h
        exact .leaf (by simp)
      · simp only [Option.map_map] at h
        obtain ⟨⟨ms, r'⟩, hm, h⟩ := Option.map_eq_some_iff.1 h
        cases h
        exact tidy_obj.2 (tidyMembers_ofPairs (ihm (by simp) hm))
      · simp only [Option.map_map] at h
        obtain ⟨_, -, h⟩ := Option.map_eq_some_iff.1 h
        cases h
        exact .leaf (by simp)
      · simp only [Option.map_map] at h
        obtain ⟨_, -, h⟩ := Option.map_eq_some_iff.1 h
        cases h
        exact .leaf (by simp)
      · cases h
        exact .leaf (by simp)
      · cases h
      · cases h
        exact tidy_bare _
    · intro done cs ms r hdone h
      simp only [members] at h
      split at h
      · cases h
        exact fun m hm => hdone m (List.mem_reverse.1 hm)
      · have hcons {k : String} {v : Json} (hv : v.Tidy) : ∀ m ∈ (k, v) :: done, m.2.Tidy :=
          fun m hm => (List.mem_cons.1 hm).elim (fun he => he ▸ hv) (hdone m)
        split at h
        · split at h
          · rename_i hv
            exact ihm (hcons (ihv hv)) h
          · rename_i hv
            cases h
            exact fun m hm => hcons (ihv hv) m (List.mem_reverse.1 hm)
          · cases h
        · cases h

theorem tidy_parse (s : String) : (parse s).Tidy := by
  simp only [parse]
  split
  · rename_i h
    exact (tidy_value _).1 h
  · exact .leaf (by simp)

end Literal

theorem tidy_nest {path : List String} {v : Json} (hv : v.Tidy) : (nest path v).Tidy := by
  induction path with
  | nil => exact hv
  | cons name path ih =>
    exact .obj (List.nodup_singleton _) (List.forall_mem_singleton.2 ih)

theorem tidyMembers_environment (start : String) (env : Environment) :
    TidyMembers (env.members start) := by
  unfold Environment.members
  refine List.foldlRecOn _ _ tidyMembers_nil fun ms hms v _ => ?_
  split
  · rename_i h
    obtain ⟨path, -, hp⟩ := Option.map_eq_some_iff.1 h
    have htop : (nest path (Literal.parse (Text.trim v.2))).Tidy :=
      tidy_nest (Literal.tidy_parse _)
    rw [hp] at htop
    exact tidyMembers_overlayMembers (tidy_obj.1 htop) hms
  · exact hms

theorem Layer.tidyMembers_read {p : Place} {l : Layer} {ms : Members}
    (h : l.read p = .ok (some ms)) : TidyMembers ms := by
  cases l with
  | file path =>
    simp only [Layer.read] at h
    split at h
    · cases h
    · split at h
      · cases h
      · rename_i format _
        obtain ⟨text, -, h⟩ := Option.bind_eq_some_iff.1 (Except.ok.inj h)
        cases format
        · exact Yaml.tidyMembers_members? h
        · exact Toml.tidyMembers_members? h
  | yaml text =>
    simp only [Layer.read, Except.ok.injEq] at h
    exact Yaml.tidyMembers_members? h
  | environment start =>
    cases h
    exact tidyMembers_environment start p.environment

end AccessControl.Settings
