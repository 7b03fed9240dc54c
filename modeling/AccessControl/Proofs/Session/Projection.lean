import AccessControl.Proofs.Session.Commuting

/-!
# Runs on one permission

The steps of a run that name other permissions are removed. What is left of a session without
faults answers the same: about a permission nothing is learnt from what happens to the others,
however alike they look.
-/

namespace AccessControl.Session

def Step.concerns (p : Permission) (x : Step) : Bool := x.permission?.all (· = p)

def repliesOver (keep : Step → Bool) (i : ProviderId) :
    List Step → Session → List (Option Http.Reply)
  | [], s => s.surroundings.repliesOf i
  | x :: xs, s =>
    match s.step x with
    | none => []
    | some (_, s') =>
      let before := s.surroundings.repliesOf i
      let after := s'.surroundings.repliesOf i
      if keep x then before.take (before.length - after.length) ++ repliesOver keep i xs s'
      else repliesOver keep i xs s'

/-- A session whose services keep no reply for the steps of a run that name other permissions. -/
def heeding (p : Permission) (xs : List Step) (s : Session) : Session :=
  s.withProviders <| s.surroundings.providers.mapIdx fun i q =>
    q.withReplies (repliesOver (Step.concerns p) i xs s)

variable {s s' u w : Session} {st : Store} {x : Step} {xs : List Step} {e : Event}
  {h : List Event} {p q : Permission} {keep : Step → Bool} {i : ProviderId}
  {left : ProviderId → List (Option Http.Reply)} {n : Nat} {o : Operation}

theorem concerns_iff : x.concerns p = true ↔ ∀ q ∈ x.permission?, q = p := by
  simp only [Step.concerns, Option.all_eq_true, decide_eq_true_eq, Option.mem_def]

theorem repliesOver_eq_nil (hi : s.surroundings.repliesOf i = []) :
    repliesOver keep i xs s = [] := by
  induction xs generalizing s with
  | nil => exact hi
  | cons x xs ih =>
    simp only [repliesOver]
    split
    · rfl
    · rename_i e s' he
      have hs' := repliesOf_step he hi
      rw [hi, hs', ih hs']
      split <;> rfl

theorem heeding_of_no_service
    (hs : ∀ e script, Provider.service e script ∉ s.surroundings.providers) :
    s.heeding p xs = s := by
  have hid : (s.surroundings.providers.mapIdx fun i q =>
      q.withReplies (repliesOver (Step.concerns p) i xs s)) = s.surroundings.providers :=
    Provider.mapIdx_withReplies hs _
  rw [heeding, hid]
  rfl

def sheltered (ps : List Provider) (s : Session) : Session :=
  { s with surroundings := { s.surroundings with openFaults := [], providers := ps } }

theorem Untroubled.sheltered (hs : s.Untroubled st) (ps : List Provider) :
    (s.sheltered ps).Untroubled st :=
  ⟨⟨hs.surroundings.source, nofun, hs.surroundings.calls⟩, hs.sound⟩

/-- A session is mirrored by another one if, but for the replies that are left, nothing about a
permission tells them apart. -/
def Mirrors (p : Permission) (left : ProviderId → List (Option Http.Reply)) (s u : Session) :
    Prop :=
  ∃ st w, s.Untroubled st ∧ s.Like left w ∧ w.Accord (· = p) u

theorem mirrors_heeding (hs : s.Untroubled st) (p : Permission) (xs : List Step) :
    s.Mirrors p (fun i => repliesOver (Step.concerns p) i xs s) (s.heeding p xs) := by
  have hlike : s.Like (fun i => repliesOver (Step.concerns p) i xs s)
      (s.sheltered (s.heeding p xs).surroundings.providers) := by
    refine ⟨rfl, rfl, rfl, rfl, rfl, ?_, ?_⟩
    · simp [sheltered, heeding, withProviders]
    · intro i
      simp only [sheltered, heeding, withProviders, List.getElem?_mapIdx]
      cases s.surroundings.providers[i]? with
      | none => exact .none
      | some p => exact .some Provider.like_withReplies
  have hheeding : (s.heeding p xs).Untroubled st := hs.withProviders _
  exact ⟨st, _, hs, hlike, st, st, hs.sheltered _, hheeding, fun _ _ => rfl, rfl, rfl⟩

theorem Untroubled.openings_asked (hs : s.Untroubled st) (h : s.step x = some (e, s')) :
    ∀ y ∈ openings (asked x s), y = .ok () := by
  cases x with
  | perform n o =>
    obtain ⟨-, r, hp, -⟩ := step_perform_eq_some h
    obtain ⟨a, a', -, -, ha, -⟩ := perform_eq_some hp
    exact (hs.surroundings.of_answers ha).1
  | _ => simp [asked]

theorem Mirrors.step (hx : x.concerns p = true) (h : s.step x = some (e, s'))
    (hu : s.Mirrors p (fun i => repliesOver (Step.concerns p) i (x :: xs) s) u) :
    ∃ u', u.step x = some (e, u') ∧
      s'.Mirrors p (fun i => repliesOver (Step.concerns p) i xs s') u' := by
  obtain ⟨st, w, hs, hlike, hacc⟩ := hu
  obtain ⟨drawn, hd⟩ := draws_step h (hs.openings_asked h)
  have hdrawn (i : ProviderId) : repliesOver (Step.concerns p) i (x :: xs) s =
      drawn i ++ repliesOver (Step.concerns p) i xs s' := by
    simp only [repliesOver, h, hx, if_true, hd.drawn_eq i]
    rfl
  simp only [hdrawn] at hlike
  obtain ⟨w', hw, hlike'⟩ := hd.alike w _ (fun i hi => repliesOver_eq_nil hi) hlike
  obtain ⟨u', hu', hacc'⟩ := hacc.step (concerns_iff.1 hx) hw
  obtain ⟨st', hs'⟩ := hs.step h
  exact ⟨u', hu', st', w', hs', hlike', hacc'⟩

theorem like_consults {a : Authority} {ps qs : List Provider}
    (h : ∀ i, Option.Rel (Provider.Like (left i)) ps[i]? qs[i]?) (i : ProviderId) :
    Option.Rel (Provider.Like (left i)) (a.consults ps o)[i]? qs[i]? := by
  have hi := h i
  rw [Authority.getElem?_consults]
  generalize ps[i]? = y at hi ⊢
  generalize qs[i]? = z at hi ⊢
  cases hi with
  | none => exact .none
  | some hl => exact .some (Provider.like_asked_iff.2 hl)

theorem Mirrors.of_removed (hx : x.concerns p = false) (h : s.step x = some (e, s'))
    (hu : s.Mirrors p (fun i => repliesOver (Step.concerns p) i (x :: xs) s) u) :
    s'.Mirrors p (fun i => repliesOver (Step.concerns p) i xs s') u := by
  obtain ⟨st, w, hs, hlike, st₁, st₂, hw, hu, hst, hstand, hprov⟩ := hu
  simp only [repliesOver, h, hx, Bool.false_eq_true, if_false] at hlike
  have hother : ¬ ∀ q ∈ x.permission?, q = p := by
    rw [← concerns_iff, hx]
    exact Bool.false_ne_true
  simp only [not_forall] at hother
  obtain ⟨q, hq, hqp⟩ := hother
  obtain ⟨n, o, rfl, ho⟩ := exists_perform_of_permission? hq
  obtain ⟨-, r, hp, rfl⟩ := step_perform_eq_some h
  obtain ⟨a, hn, -⟩ := hs.perform hp
  obtain ⟨s₁, hp₁, hs₁, hstand₁, hprov₁⟩ := hs.perform_named (by rw [ho]; rfl) hn
  cases hp₁.symm.trans hp
  refine ⟨_, s'.sheltered w.surroundings.providers, hs₁, ?_, ?_⟩
  · refine ⟨rfl, rfl, rfl, rfl, rfl, ?_, ?_⟩
    · rw [hprov₁, Authority.length_consults]
      exact hlike.surroundings.length
    · intro i
      rw [hprov₁]
      exact like_consults hlike.surroundings.providers i
  · have hstore : st₁ = st := by
      have hsource := hlike.surroundings.source
      rw [hw.surroundings.source, hs.surroundings.source] at hsource
      exact Source.memory.inj hsource
    have hauth : w.standings = s.standings := by rw [standings, standings, hlike.authorities]
    refine ⟨_, st₂, hs₁.sheltered _, hu, ?_, ?_, hprov⟩
    · rintro _ rfl
      rw [Authority.roles?_settle_of_ne (by simpa [ho] using hqp), ← hst _ rfl, hstore]
    · rw [← hstand, hauth, ← hstand₁]
      rfl

theorem run_projected
    (hu : s.Mirrors p (fun i => repliesOver (Step.concerns p) i xs s) u)
    (hrun : s.run xs = some (h, s')) :
    ∃ u', u.run (xs.filter (Step.concerns p)) = some (h.filter (·.step.concerns p), u') := by
  -- on the steps: the other session mirrors this one with the replies for the steps to come
  induction xs generalizing s u h with
  | nil =>
    cases hrun
    exact ⟨u, rfl⟩
  | cons x xs ih =>
    obtain ⟨e, s₁, h₁, he, hh, rfl⟩ := runSteps_cons_eq_some hrun
    have hstep : e.step = x := step_event he
    cases hx : x.concerns p with
    | true =>
      obtain ⟨u₁, hu₁, hm⟩ := hu.step hx he
      obtain ⟨u', hu'⟩ := ih hm hh
      rw [run] at hu'
      refine ⟨u', ?_⟩
      rw [List.filter_cons_of_pos hx, List.filter_cons_of_pos (hstep ▸ hx)]
      simp only [run, runSteps, hu₁, hu']
    | false =>
      obtain ⟨u', hu'⟩ := ih (hu.of_removed hx he) hh
      refine ⟨u', ?_⟩
      rw [List.filter_cons_of_neg (by simp [hx]), List.filter_cons_of_neg (by simp [hstep, hx])]
      exact hu'

/-- Permissions do not interfere. The steps of a run that name a permission, and those that name
none, answer the same without the steps that name others, and steps on two permissions commute: a
service that is asked goes on with the reply that each of them would have come to. -/
theorem permissions_apart (hs : s.Untroubled st) :
    (∀ p xs h s', s.run xs = some (h, s') →
      ∃ u, (s.heeding p xs).run (xs.filter (Step.concerns p)) =
        some (h.filter (·.step.concerns p), u)) ∧
    (∀ xs h s', s.run xs = some (h, s') → ∀ x y p q, x.permission? = some p →
      y.permission? = some q → p ≠ q → ∀ e s₁ e' s₂, s'.step x = some (e, s₁) →
        s₁.step y = some (e', s₂) →
        ∃ u, (s'.swapped s₁ s₂).run [y, x] = some ([e', e], u) ∧
          ∀ zs, (s₂.run zs).map (·.1) = (u.run zs).map (·.1)) ∧
    ∀ u : Session, (∀ e script, Provider.service e script ∉ u.surroundings.providers) →
      (∀ p xs, u.heeding p xs = u) ∧ ∀ s₁ s₂, u.swapped s₁ s₂ = u := by
  refine ⟨?_, ?_, ?_⟩
  · intro p xs h s' hrun
    exact run_projected (mirrors_heeding hs p xs) hrun
  · intro xs h s' hrun x y p q hx hy hpq e s₁ e' s₂ hstep hstep'
    obtain ⟨st', hs'⟩ := hs.run hrun
    obtain ⟨u, hu, hacc⟩ := hs'.step_comm hx hy hpq hstep hstep'
    exact ⟨u, hu, hacc.run_history⟩
  · intro u hnone
    exact ⟨fun _ _ => heeding_of_no_service hnone, fun _ _ => swapped_of_no_service hnone⟩

theorem permissions_apart_lookalikes :
    let p : Permission := ⟨"a:b", "c"⟩
    let q : Permission := ⟨"a", "b:c"⟩
    let r : Role := ⟨"ops", "Operators"⟩
    let a : Authority := .new true (some .standard) (some 0)
    let s : Session := ⟨[a, a],
      ⟨.memory .empty, [.directory ⟨[("alice", [⟨"ops", "Operators"⟩])]⟩], [], [], 0, []⟩⟩
    let xs : List Step := [.perform 0 (.add q), .perform 0 (.grant q r), .perform 1 (.add p),
      .perform 0 (.check "alice" p), .perform 0 (.delete q)]
    p.text = q.text ∧
    (∃ h s', s.run xs = some (h, s') ∧ h.filter (·.step.concerns p) =
      [⟨.perform 1 (.add p), .ok ()⟩, ⟨.perform 0 (.check "alice" p), .ok false⟩]) ∧
    ∃ h s' s₁ s₂, s.run [.perform 0 (.add q)] = some (h, s') ∧
      s'.step (.perform 0 (.grant q r)) = some (⟨.perform 0 (.grant q r), .ok ()⟩, s₁) ∧
      s₁.step (.perform 1 (.add p)) = some (⟨.perform 1 (.add p), .ok ()⟩, s₂) ∧
      ∃ u, s'.run [.perform 1 (.add p), .perform 0 (.grant q r)] =
        some ([⟨.perform 1 (.add p), .ok ()⟩, ⟨.perform 0 (.grant q r), .ok ()⟩], u) ∧
        ∀ zs, (s₂.run zs).map (·.1) = (u.run zs).map (·.1) := by
  intro p q r a s xs
  have hs : s.Untroubled .empty :=
    ⟨⟨rfl, nofun, rfl⟩, by simp [s, a, Authority.new, Authority.Sound]⟩
  obtain ⟨hprojected, hcomm, hsame⟩ := permissions_apart hs
  refine ⟨by decide, ?_, ?_⟩
  · have hsome : (s.run xs).isSome = true := rfl
    obtain ⟨⟨h, s'⟩, hrun⟩ := Option.isSome_iff_exists.1 hsome
    obtain ⟨u, hu⟩ := hprojected p xs h s' hrun
    rw [(hsame s (by simp [s])).1] at hu
    have hp : s.run [.perform 1 (.add p), .perform 0 (.check "alice" p)] =
        some ([⟨.perform 1 (.add p), .ok ()⟩, ⟨.perform 0 (.check "alice" p), .ok false⟩], _) := rfl
    refine ⟨h, s', hrun, ?_⟩
    exact congrArg Prod.fst (Option.some.inj (hu.symm.trans hp))
  · obtain ⟨h, s', s₁, s₂, hrun, hnone, hstep, hstep'⟩ :
        ∃ h s' s₁ s₂, s.run [.perform 0 (.add q)] = some (h, s') ∧
          (∀ e script, Provider.service e script ∉ s'.surroundings.providers) ∧
          s'.step (.perform 0 (.grant q r)) = some (⟨.perform 0 (.grant q r), .ok ()⟩, s₁) ∧
          s₁.step (.perform 1 (.add p)) = some (⟨.perform 1 (.add p), .ok ()⟩, s₂) := by
      refine ⟨_, _, _, _, rfl, ?_, rfl, rfl⟩
      intro e script hmem
      cases hmem with
      | tail _ hmem => cases hmem
    obtain ⟨u, hu, hlater⟩ :=
      hcomm _ h s' hrun _ _ q p rfl rfl (by decide) _ s₁ _ s₂ hstep hstep'
    rw [(hsame s' hnone).2] at hu
    exact ⟨h, s', s₁, s₂, hrun, hstep, hstep', u, hu, hlater⟩

end AccessControl.Session
