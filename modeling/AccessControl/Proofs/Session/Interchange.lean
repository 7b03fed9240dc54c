import AccessControl.Proofs.Session.Settlement

/-!
# Authorities that can stand in for one another

Authorities that were given the same are of no account to a store in memory: whichever of them takes
a step, the step answers the same and leaves the same store. When each of them opened its store does
not matter either.
-/

namespace AccessControl.Session

def Step.takenBy (n : Nat) : Step → Step
  | .perform _ o => .perform n o
  | x => x

def assigned (who : Nat → Nat) (xs : List Step) : List Step :=
  xs.mapIdx fun k x => x.takenBy (who k)

def Event.unsigned : Event → Event
  | ⟨.perform _ o, r⟩ => ⟨.perform 0 o, r⟩
  | e => e

/-- A step that does not tell the authorities apart: an operation that binds none of them, or a
change in one of so many directories. -/
def Step.impartial (providers : Nat) : Step → Bool
  | .perform _ o => o.permission?.isSome
  | .give _ => false
  | .setGroups i _ _ => decide (i < providers)
  | .removeUser i _ => decide (i < providers)

/-- Two sessions over the same store whose authorities were all given the same. -/
structure Twins (a : Authority) (s u : Session) : Prop where
  untroubled : ∃ st, s.Untroubled st ∧ u.Untroubled st
  standings : s.standings = u.standings
  uniform : ∀ b ∈ s.standings, b = a
  providers : s.surroundings.providers = u.surroundings.providers

variable {s u : Session} {a : Authority} {o : Operation} {n m : Nat} {st : Store} {x : Step}
  {xs : List Step} {who who' : Nat → Nat}

@[simp]
theorem length_standings : s.standings.length = s.authorities.length := by simp [standings]

theorem Untroubled.perform_uniform (hs : s.Untroubled st) (ha : ∀ b ∈ s.standings, b = a)
    (ho : o.permission?.isSome = true) (hn : n < s.standings.length) :
    ∃ s', s.perform n o = some ((a.settle s.surroundings.providers o st).1, s') ∧
      s'.Untroubled (a.settle s.surroundings.providers o st).2 ∧ s'.standings = s.standings ∧
      s'.surroundings.providers = a.consults s.surroundings.providers o := by
  rw [length_standings] at hn
  obtain ⟨r, s', hp⟩ := exists_perform (List.getElem?_eq_getElem hn) o
  obtain ⟨b, hb, hr, hs', hstand, hprov⟩ := hs.perform hp
  obtain rfl : b = a := ha b (List.mem_of_getElem? hb)
  refine ⟨s', hr ▸ hp, hs', ?_, hprov⟩
  obtain ⟨hlt, hget⟩ := List.getElem?_eq_some_iff.1 hb
  rw [hstand, Operation.rebinds_of_permission? ho, ← hget]
  exact List.set_getElem_self hlt

theorem Twins.perform (h : s.Twins a u) (ho : o.permission?.isSome = true)
    (hn : n < s.standings.length) (hm : m < s.standings.length) :
    ∃ r s' u', s.perform n o = some (r, s') ∧ u.perform m o = some (r, u') ∧ s'.Twins a u' ∧
      s'.standings = s.standings ∧
      s'.surroundings.providers.length = s.surroundings.providers.length := by
  obtain ⟨⟨st, hs, hu⟩, hstand, huniform, hprov⟩ := h
  obtain ⟨s', hp, hs', hstand₁, hprov₁⟩ := hs.perform_uniform huniform ho hn
  obtain ⟨u', hq, hu', hstand₂, hprov₂⟩ := hu.perform_uniform (hstand ▸ huniform) ho (hstand ▸ hm)
  rw [← hprov] at hq hu' hprov₂
  refine ⟨_, s', u', hp, hq, ⟨⟨_, hs', hu'⟩, ?_, hstand₁ ▸ huniform, ?_⟩, hstand₁, ?_⟩
  · rw [hstand₁, hstand₂, hstand]
  · rw [hprov₁, hprov₂]
  · rw [hprov₁, Authority.length_consults]

theorem Twins.changeDirectoryAt (h : s.Twins a u) (i : ProviderId) (f : Directory → Directory) :
    (s.changeDirectoryAt i f).Twins a (u.changeDirectoryAt i f) := by
  obtain ⟨⟨st, hs, hu⟩, hstand, huniform, hprov⟩ := h
  refine ⟨⟨st, hs.withProviders _, hu.withProviders _⟩, hstand, huniform, ?_⟩
  simp only [Session.changeDirectoryAt, hprov]

theorem Twins.step (h : s.Twins a u) (hx : x.impartial s.surroundings.providers.length = true)
    (hn : n < s.standings.length) (hm : m < s.standings.length) :
    ∃ e e' s' u', s.step (x.takenBy n) = some (e, s') ∧ u.step (x.takenBy m) = some (e', u') ∧
      e.unsigned = e'.unsigned ∧ s'.Twins a u' ∧ s'.standings = s.standings ∧
      s'.surroundings.providers.length = s.surroundings.providers.length := by
  have hlen : u.surroundings.providers.length = s.surroundings.providers.length := by
    rw [h.providers]
  have hchange (i : ProviderId) (f : Directory → Directory) :
      (s.changeDirectoryAt i f).surroundings.providers.length =
        s.surroundings.providers.length := List.length_modify ..
  cases x with
  | perform k o =>
    obtain ⟨r, s', u', hp, hq, htwins, hstand, hprov⟩ := h.perform hx hn hm
    have hfits (count : Nat) : o.fits count = true := by
      cases o with
      | bind i => cases hx
      | _ => rfl
    exact ⟨_, _, s', u', step_perform (hfits _) hp, step_perform (hfits _) hq, rfl, htwins, hstand,
      hprov⟩
  | give d => cases hx
  | setGroups i user gs =>
    have hi : i < s.surroundings.providers.length := of_decide_eq_true hx
    refine ⟨_, _, _, _, if_pos hi, if_pos (hlen ▸ hi), rfl, ?_, rfl, hchange i _⟩
    exact h.changeDirectoryAt i _
  | removeUser i user =>
    have hi : i < s.surroundings.providers.length := of_decide_eq_true hx
    refine ⟨_, _, _, _, if_pos hi, if_pos (hlen ▸ hi), rfl, ?_, rfl, hchange i _⟩
    exact h.changeDirectoryAt i _

theorem Twins.run (h : s.Twins a u)
    (hxs : ∀ x ∈ xs, x.impartial s.surroundings.providers.length = true)
    (hwho : ∀ k < xs.length, who k < s.standings.length)
    (hwho' : ∀ k < xs.length, who' k < s.standings.length) :
    ∃ es es' s' u', s.run (assigned who xs) = some (es, s') ∧
      u.run (assigned who' xs) = some (es', u') ∧
      es.map Event.unsigned = es'.map Event.unsigned ∧ s'.Twins a u' := by
  -- the first step is taken by two authorities, and the rest is assigned by what comes after it
  induction xs generalizing s u who who' with
  | nil => exact ⟨[], [], s, u, rfl, rfl, rfl, h⟩
  | cons x xs ih =>
    obtain ⟨hx, hxs⟩ := List.forall_mem_cons.1 hxs
    obtain ⟨e, e', s₁, u₁, hstep, hstep', he, htwins, hstand, hprov⟩ :=
      h.step hx (hwho 0 (Nat.succ_pos _)) (hwho' 0 (Nat.succ_pos _))
    have hnext : ∀ k < xs.length, who (k + 1) < s₁.standings.length :=
      fun k hk => hstand ▸ hwho (k + 1) (Nat.succ_lt_succ hk)
    have hnext' : ∀ k < xs.length, who' (k + 1) < s₁.standings.length :=
      fun k hk => hstand ▸ hwho' (k + 1) (Nat.succ_lt_succ hk)
    obtain ⟨es, es', s', u', hrun, hrun', hes, htwins'⟩ := ih htwins (hprov ▸ hxs) hnext hnext'
    refine ⟨e :: es, e' :: es', s', u', ?_, ?_, ?_, htwins'⟩
    · rw [Session.run, assigned] at hrun ⊢
      simp only [List.mapIdx_cons, runSteps, hstep, hrun]
    · rw [Session.run, assigned] at hrun' ⊢
      simp only [List.mapIdx_cons, runSteps, hstep', hrun']
    · rw [List.map_cons, List.map_cons, he, hes]

/-- Over one store in memory and without faults, authorities that were given the same can be
interchanged: however impartial steps are handed out to them, every step answers the same and the
same store is left. -/
theorem authorities_interchangeable (hs : s.Untroubled st) (halike : ∀ b ∈ s.standings, b = a)
    (hxs : ∀ x ∈ xs, x.impartial s.surroundings.providers.length = true)
    (hwho : ∀ k < xs.length, who k < s.authorities.length)
    (hwho' : ∀ k < xs.length, who' k < s.authorities.length) :
    ∃ es es' s₁ s₂ st', s.run (assigned who xs) = some (es, s₁) ∧
      s.run (assigned who' xs) = some (es', s₂) ∧
      es.map Event.unsigned = es'.map Event.unsigned ∧
      s₁.surroundings.source = .memory st' ∧ s₂.surroundings.source = .memory st' := by
  have htwins : s.Twins a s := ⟨⟨st, hs, hs⟩, rfl, halike, rfl⟩
  rw [← length_standings] at hwho hwho'
  obtain ⟨es, es', s₁, s₂, hrun, hrun', hes, ⟨st', hs₁, hs₂⟩, -⟩ := htwins.run hxs hwho hwho'
  exact ⟨es, es', s₁, s₂, st', hrun, hrun', hes, hs₁.surroundings.source, hs₂.surroundings.source⟩

theorem authorities_interchangeable_in_turn :
    let p : Permission := ⟨"dashboard-1", "view"⟩
    let ops : Role := ⟨"ops", "Operators"⟩
    let s : Session := fresh .standard [some 0, some 0, some 0] [⟨[("bob", [])]⟩]
    let xs : List Step := [.perform 0 (.add p), .perform 0 (.grant p ops),
      .setGroups 0 "alice" [⟨"ops", "Operators"⟩], .perform 0 (.check "alice" p),
      .perform 0 (.delete p), .perform 0 (.check "alice" p), .perform 0 (.grantedRoles p)]
    ∃ es es' s₁ s₂, s.run (assigned (· % 3) xs) = some (es, s₁) ∧
      s.run (assigned (fun _ => 0) xs) = some (es', s₂) ∧
      es.map Event.unsigned = es'.map Event.unsigned ∧
      s₁.surroundings.source = s₂.surroundings.source ∧
      s₁.authorities.map (·.opened) = [true, true, true] ∧
      s₂.authorities.map (·.opened) = [true, false, false] := by
  intro p ops s xs
  have hs : s.Untroubled .empty := by
    refine ⟨⟨rfl, nofun, rfl⟩, fun a ha => ?_⟩
    obtain ⟨bound, -, rfl⟩ := List.mem_map.1 ha
    exact nofun
  have halike : ∀ b ∈ s.standings, b = .new true (some .standard) (some 0) := by decide
  have himpartial : ∀ x ∈ xs, x.impartial s.surroundings.providers.length = true := by decide
  have hturns : ∀ k < xs.length, k % 3 < s.authorities.length := by decide
  have hfirst : ∀ k < xs.length, 0 < s.authorities.length := by decide
  obtain ⟨es, es', s₁, s₂, st, hrun, hrun', hes, hs₁, hs₂⟩ :=
    authorities_interchangeable hs halike himpartial hturns hfirst
  have hopen : (s.run (assigned (· % 3) xs)).map (·.2.authorities.map (·.opened)) =
      some [true, true, true] := by decide
  have hopen' : (s.run (assigned (fun _ => 0) xs)).map (·.2.authorities.map (·.opened)) =
      some [true, false, false] := by decide
  rw [hrun] at hopen
  rw [hrun'] at hopen'
  exact ⟨es, es', s₁, s₂, hrun, hrun', hes, hs₁.trans hs₂.symm, Option.some.inj hopen,
    Option.some.inj hopen'⟩

end AccessControl.Session
