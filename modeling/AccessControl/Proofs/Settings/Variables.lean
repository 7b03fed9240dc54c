import AccessControl.Proofs.Settings.Frame

/-!
# One variable among others

A variable stands for a field of a section. Unless a variable that comes later has a say on that
field, the environment has the value of the variable there, and its surroundings do not depend on
that value.
-/

namespace AccessControl.Settings

open Text Json

/-- Two paths of which one leads through the end of the other. -/
def Meets (path path' : List String) : Prop := path <+: path' ∨ path' <+: path

variable {path : List String} {ts : Members} {sec field : String} {v : Json} {r : Frame}

theorem quiet_nest (h : ¬ Meets path [sec, field]) (hn : nest path v = .obj ts) :
    Quiet sec field ts := by
  cases path with
  | nil => exact (h (.inl List.nil_prefix)).elim
  | cons name path =>
    cases hn
    intro w hw
    rw [member?] at hw
    split at hw
    · rename_i hname
      subst hname
      cases hw
      cases path with
      | nil => exact (h (.inl (List.prefix_append [name] [field]))).elim
      | cons name' path =>
        refine ⟨[(name', nest path v)], rfl, if_neg ?_⟩
        rintro rfl
        exact h (.inr (List.prefix_append [name, name'] path))
    · cases hw

namespace Environment

variable {start name : String} {x : String × String}

def lay (start : String) (ms : Members) (x : String × String) : Members :=
  match setting? start x with
  | some (.obj top) => overlayMembers top ms
  | _ => ms

theorem members_eq_foldl (start : String) (env : Environment) :
    env.members start = env.foldl (lay start) [] := rfl

theorem stands_lay (h : ∀ path, path? start x.1 = some path → ¬ Meets path [sec, field])
    (r : Frame) :
    ∃ r', ∀ v ms, Stands sec field v r ms → Stands sec field v r' (lay start ms x) := by
  unfold lay
  split
  · rename_i top hx
    obtain ⟨path, hpath, hnest⟩ := Option.map_eq_some_iff.1 hx
    have htop : (nest path (Literal.parse (trim x.2))).Tidy := tidy_nest (Literal.tidy_parse _)
    rw [hnest] at htop
    exact ⟨_, fun v ms hms =>
      hms.overlayMembers_of_quiet (tidy_obj.1 htop) (quiet_nest (h path hpath) hnest)⟩
  · exact ⟨r, fun v ms => id⟩

theorem stands_foldl {xs : Environment}
    (h : ∀ x ∈ xs, ∀ path, path? start x.1 = some path → ¬ Meets path [sec, field]) (r : Frame) :
    ∃ r', ∀ v ms, Stands sec field v r ms → Stands sec field v r' (xs.foldl (lay start) ms) := by
  induction xs generalizing r with
  | nil => exact ⟨r, fun v ms => id⟩
  | cons x xs ih =>
    obtain ⟨hx, hxs⟩ := List.forall_mem_cons.1 h
    obtain ⟨r', hr'⟩ := stands_lay hx r
    obtain ⟨r'', hr''⟩ := ih hxs r'
    exact ⟨r'', fun v ms hms => hr'' v _ (hr' v ms hms)⟩

theorem lay_of_path {v : String} (hpath : path? start name = some [sec, field]) (ms : Members) :
    lay start ms (name, v) =
      overlayMembers [(sec, .obj [(field, Literal.parse (trim v))])] ms := by
  simp only [lay, setting?, hpath, Option.map_some, nest]

/-- Whatever the value of a variable is, what it means stands in the field the variable is for, and
the surroundings are the same. -/
theorem stands_members (before : Environment) {after : Environment}
    (hpath : path? start name = some [sec, field])
    (hlast : ∀ x ∈ after, ∀ path, path? start x.1 = some path → ¬ Meets path [sec, field]) :
    ∃ r, ∀ w, Stands sec field (Literal.parse (trim w)) r
      ((before ++ (name, w) :: after : Environment).members start) := by
  obtain ⟨r, hr⟩ := stands_foldl hlast _
  refine ⟨r, fun w => ?_⟩
  rw [members_eq_foldl, List.foldl_append, List.foldl_cons, lay_of_path hpath]
  exact hr _ _ (stands_of_set sec field _ _)

end Environment

end AccessControl.Settings
