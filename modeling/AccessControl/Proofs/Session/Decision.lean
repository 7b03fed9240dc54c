import AccessControl.Proofs.Session.History

/-!
# Decisions and histories

A check answers from the history of the session alone: from the provider bound last, the groups last
set there, and the grants that nothing has withdrawn since. Roles and groups meet by their ids.
-/

namespace AccessControl

namespace Operation

variable {ds : List Directory} {bound : Option ProviderId} {st : Store} {user : String}
  {p : Permission}

def checked (ds : List Directory) (bound : Option ProviderId) (st : Store) (user : String)
    (p : Permission) : Except AuthorityError Bool :=
  ((check user p).onStore (Ledger.lookup ds bound) st).1

theorem checked_unbound :
    checked ds none st user p = .error (.configuration "no identity provider is bound") := rfl

theorem checked_unknown {i : ProviderId} {d : Directory} (hd : ds[i]? = some d)
    (hu : d.groups? user = none) :
    checked ds (some i) st user p = .error (.roleResolution user (.userNotFound user)) := by
  simp [checked, onStore, Ledger.lookup, hd, Directory.lookupGroups, hu]

theorem checked_known {i : ProviderId} {d : Directory} {gs : List Group} (hd : ds[i]? = some d)
    (hu : d.groups? user = some gs) :
    ∃ b : Bool, checked ds (some i) st user p = .ok b ∧
      (b = true ↔ ∃ g ∈ gs, st.Holds p g.id) := by
  simp only [checked, onStore, Ledger.lookup, hd, Directory.lookupGroups, hu, mapError_ok]
  cases gs with
  | nil => exact ⟨false, rfl, by simp⟩
  | cons g gs =>
    obtain ⟨b, hb⟩ : ∃ b, (Store.apply (.hasAny (Role.ofGroups (g :: gs)) p) st).1 = .ok b := by
      simp only [Store.apply]
      split <;> exact ⟨_, rfl⟩
    refine ⟨b, ?_, ?_⟩
    · simp [Store.report, hb]
    · rw [Store.hasAny_eq_ok_iff.1 hb]
      simp only [Role.ofGroups, List.mem_map]
      constructor
      · rintro ⟨_, ⟨g, hg, rfl⟩, hh⟩
        exact ⟨g, hg, hh⟩
      · rintro ⟨g, hg, hh⟩
        exact ⟨_, ⟨g, hg, rfl⟩, hh⟩

end Operation

namespace Session

/-- After any run over a store that was empty, a check of any user for any permission is decided by
the history. -/
theorem check_iff_history {s₀ s : Session} {m₀ : Ledger} {xs : List Step} {h : List Event} {n : Nat}
    (hshows : s₀.Shows m₀) (hempty : m₀.store = .empty) (hclosed : m₀.Closed)
    (hrun : s₀.run xs = some (h, s)) (hn : n < s₀.authorities.length) (user : String)
    (p : Permission) :
    ∃ r s', s.perform n (.check user p) = some (r, s') ∧
      (r = .ok true ↔ ∃ i gs, boundAfter m₀.bindings h n = some i ∧
        groupsAfter m₀.directories h i user = some gs ∧ ∃ g ∈ gs, Granted p g.id h) ∧
      (r = .ok false ↔ ∃ i gs, boundAfter m₀.bindings h n = some i ∧
        groupsAfter m₀.directories h i user = some gs ∧ ¬ ∃ g ∈ gs, Granted p g.id h) ∧
      (r = .error (.roleResolution user (.userNotFound user)) ↔
        ∃ i, boundAfter m₀.bindings h n = some i ∧ groupsAfter m₀.directories h i user = none) ∧
      (r = .error (.configuration "no identity provider is bound") ↔
        boundAfter m₀.bindings h n = none) := by
  obtain ⟨m, hm, hs⟩ := (run_agrees xs hshows).exists_right hrun
  have ht := Ledger.tracks_run hempty hm
  have hc := Ledger.closed_run hclosed hm
  have hlt : n < m.bindings.length := by
    rw [ht.length, ← hshows.bindings, List.length_map]
    exact hn
  have hb : m.bindings[n]? = some m.bindings[n] := List.getElem?_eq_getElem hlt
  have hbound := ht.bound n
  rw [hb, Option.getD_some] at hbound
  obtain ⟨s', hp, -⟩ := hs.perform hb (.check user p)
  refine ⟨Operation.checked m.directories m.bindings[n] m.store user p, s', hp, ?_⟩
  rw [← hbound]
  simp only [← ht.groups, ← ht.holds]
  cases hi : m.bindings[n] with
  | none => simp [Operation.checked_unbound]
  | some i =>
    have hmem : i < m.directories.length := hc i (hi ▸ List.getElem_mem hlt)
    have hd := List.getElem?_eq_getElem hmem
    cases hu : m.directories[i].groups? user with
    | none => simp [Operation.checked_unknown hd hu, hd, hu]
    | some gs =>
      obtain ⟨b, hr, hbg⟩ : ∃ b : Bool,
          Operation.checked m.directories (some i) m.store user p = .ok b ∧
            (b = true ↔ ∃ g ∈ gs, m.store.Holds p g.id) := Operation.checked_known hd hu
      simp [hr, hd, hu, ← hbg, -not_exists]

theorem check_iff_history_regranted :
    let p : Permission := ⟨"dashboard-1", "view"⟩
    let xs : List Step := [.give ⟨[("alice", [⟨"ops", "Operators"⟩])]⟩, .perform 0 (.bind 0),
      .perform 0 (.add p), .perform 0 (.grant p ⟨"ops", "Ops"⟩), .perform 0 (.delete p),
      .perform 0 (.add p), .perform 0 (.grant p ⟨"ops", "Night shift"⟩)]
    ∃ h s s', (fresh .standard [none] []).run xs = some (h, s) ∧
      s.perform 0 (.check "alice" p) = some (.ok true, s') ∧
      ∃ i gs, boundAfter [none] h 0 = some i ∧ groupsAfter [] h i "alice" = some gs ∧
        ∃ g ∈ gs, Granted p g.id h := by
  intro p xs
  refine ⟨_, _, _, rfl, rfl, ?_⟩
  have hrun : (fresh .standard [none] []).run xs = some (_, _) := rfl
  obtain ⟨r, s', hp, hallowed, -⟩ := check_iff_history (fresh_shows .standard [none] []) rfl
    (by simp [Ledger.Closed]) hrun Nat.zero_lt_one "alice" p
  cases hp
  exact hallowed.1 rfl

end Session

end AccessControl
