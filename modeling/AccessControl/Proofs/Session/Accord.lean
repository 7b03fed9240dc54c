import AccessControl.Proofs.Session.Settlement
import AccessControl.Proofs.Session.Without

/-!
# Sessions in accord

Two sessions without faults are in accord on some permissions if nothing about these tells them
apart: whatever names no other permission answers the same in both.
-/

namespace AccessControl

namespace Authority

variable {a : Authority} {o : Operation} {ps qs : List Provider} {st : Store}

theorem settle_congr_unlogged (h : ps.map Provider.unlogged = qs.map Provider.unlogged) :
    a.settle ps o st = a.settle qs o st := by
  refine settle_congr_lookups fun i user _ => ?_
  have hi := congrArg (·[i]?) h
  simp only [List.getElem?_map] at hi
  generalize ps[i]? = y at hi ⊢
  generalize qs[i]? = z at hi ⊢
  cases y with
  | none => rw [Option.map_eq_none_iff.1 hi.symm]
  | some p =>
    obtain ⟨q, rfl, hq⟩ := Option.map_eq_some_iff.1 hi.symm
    exact congrArg some (Provider.lookup_congr user hq.symm).1

theorem unlogged_consults (h : ps.map Provider.unlogged = qs.map Provider.unlogged) :
    (a.consults ps o).map Provider.unlogged = (a.consults qs o).map Provider.unlogged := by
  refine List.ext_getElem? fun i => ?_
  have hi := congrArg (·[i]?) h
  simp only [List.getElem?_map, getElem?_consults, Option.map_map] at hi ⊢
  generalize ps[i]? = y at hi ⊢
  generalize qs[i]? = z at hi ⊢
  cases y with
  | none => rw [Option.map_eq_none_iff.1 hi.symm]
  | some p =>
    obtain ⟨q, rfl, hq⟩ := Option.map_eq_some_iff.1 hi.symm
    cases a.asks i o with
    | none => exact congrArg some hq.symm
    | some user => exact congrArg some (Provider.lookup_congr user hq.symm).2

end Authority

namespace Session

/-- Sessions without faults that agree about some permissions. What was logged is of no account. -/
def Accord (K : Permission → Prop) (s u : Session) : Prop :=
  ∃ st st' : Store, s.Untroubled st ∧ u.Untroubled st' ∧ (∀ p, K p → st.roles? p = st'.roles? p) ∧
    s.standings = u.standings ∧
    s.surroundings.providers.map Provider.unlogged = u.surroundings.providers.map Provider.unlogged

variable {K : Permission → Prop} {s s' u : Session} {st : Store} {n : Nat} {o : Operation}
  {r : o.Result} {x : Step} {e : Event} {p : Permission} {xs : List Step} {ps qs : List Provider}

theorem Accord.symm (h : s.Accord K u) : u.Accord K s := by
  obtain ⟨st, st', hs, hu, hst, ha, hp⟩ := h
  exact ⟨st', st, hu, hs, fun p hp => (hst p hp).symm, ha.symm, hp.symm⟩

theorem exists_perform_of_standings {a : Authority} (hn : s.standings[n]? = some a)
    (o : Operation) : ∃ r s', s.perform n o = some (r, s') := by
  rw [standings, List.getElem?_map, Option.map_eq_some_iff] at hn
  obtain ⟨b, hb, -⟩ := hn
  exact exists_perform hb o

theorem Accord.perform (h : s.Accord K u) (ho : ∀ q ∈ o.permission?, K q)
    (hp : s.perform n o = some (r, s')) :
    ∃ u', u.perform n o = some (r, u') ∧ s'.Accord K u' := by
  obtain ⟨st, st', hs, hu, hst, hstand, hprov⟩ := h
  obtain ⟨a, hn, rfl, hs', hstand₁, hprov₁⟩ := hs.perform hp
  obtain ⟨r', u', hq⟩ := exists_perform_of_standings (hstand ▸ hn) o
  obtain ⟨b, hm, rfl, hu', hstand₂, hprov₂⟩ := hu.perform hq
  obtain rfl : a = b := by
    rw [hstand, hm] at hn
    exact (Option.some.inj hn).symm
  have hsettle (st : Store) : a.settle s.surroundings.providers o st =
      a.settle u.surroundings.providers o st :=
    Authority.settle_congr_unlogged hprov
  have hfst : (a.settle u.surroundings.providers o st').1 =
      (a.settle s.surroundings.providers o st).1 := by
    rw [hsettle]
    exact (Authority.settle_fst_congr fun q hq => hst q (ho q hq)).symm
  refine ⟨u', hfst ▸ hq, _, _, hs', hu', ?_, ?_, ?_⟩
  · intro p hp
    rw [hsettle]
    exact Authority.roles?_settle_congr (hst p hp)
  · rw [hstand₁, hstand₂, hstand]
  · rw [hprov₁, hprov₂]
    exact Authority.unlogged_consults hprov

theorem Accord.withProviders (h : s.Accord K u)
    (hps : ps.map Provider.unlogged = qs.map Provider.unlogged) :
    (s.withProviders ps).Accord K (u.withProviders qs) := by
  obtain ⟨st, st', hs, hu, hst, hstand, -⟩ := h
  exact ⟨st, st', hs.withProviders ps, hu.withProviders qs, hst, hstand, hps⟩

theorem unlogged_modify (i : ProviderId) (f : Directory → Directory)
    (h : ps.map Provider.unlogged = qs.map Provider.unlogged) :
    (ps.modify i (·.changeDirectory f)).map Provider.unlogged =
      (qs.modify i (·.changeDirectory f)).map Provider.unlogged := by
  have hmap (ps : List Provider) : (ps.modify i (·.changeDirectory f)).map Provider.unlogged =
      (ps.map Provider.unlogged).modify i (·.changeDirectory f) := by
    refine List.ext_getElem? fun j => ?_
    rw [List.getElem?_map, List.getElem?_modify, List.getElem?_modify, List.getElem?_map]
    cases ps[j]? with
    | none => rfl
    | some q =>
      by_cases hij : i = j
      · simp only [hij, if_true]
        exact congrArg some (Provider.unlogged_changeDirectory f q)
      · simp only [hij, if_false]
        rfl
  rw [hmap, hmap, h]

theorem Accord.step (h : s.Accord K u) (hx : ∀ q ∈ x.permission?, K q)
    (hstep : s.step x = some (e, s')) : ∃ u', u.step x = some (e, u') ∧ s'.Accord K u' := by
  have hprov : s.surroundings.providers.map Provider.unlogged =
      u.surroundings.providers.map Provider.unlogged := by
    obtain ⟨-, -, -, -, -, -, hp⟩ := h
    exact hp
  have hlength : s.surroundings.providers.length = u.surroundings.providers.length := by
    simpa using congrArg List.length hprov
  cases x with
  | perform n o =>
    obtain ⟨hfits, r, hp, rfl⟩ := step_perform_eq_some hstep
    obtain ⟨u', hu, hacc⟩ := h.perform hx hp
    exact ⟨u', step_perform (hlength ▸ hfits) hu, hacc⟩
  | give d =>
    cases hstep
    have hgive : u.step (.give d) = some (⟨.give d, s.surroundings.providers.length⟩,
        u.withProviders (u.surroundings.providers ++ [.directory d])) := by
      rw [hlength]
      rfl
    have hps : (s.surroundings.providers ++ [Provider.directory d]).map Provider.unlogged =
        (u.surroundings.providers ++ [Provider.directory d]).map Provider.unlogged := by
      rw [List.map_append, List.map_append, hprov]
    exact ⟨_, hgive, h.withProviders hps⟩
  | setGroups i user gs =>
    simp only [Session.step, hlength] at hstep ⊢
    split at hstep
    · rename_i hi
      cases hstep
      rw [if_pos hi]
      exact ⟨_, rfl, h.withProviders (unlogged_modify i _ hprov)⟩
    · cases hstep
  | removeUser i user =>
    simp only [Session.step, hlength] at hstep ⊢
    split at hstep
    · rename_i hi
      cases hstep
      rw [if_pos hi]
      exact ⟨_, rfl, h.withProviders (unlogged_modify i _ hprov)⟩
    · cases hstep

theorem Accord.step_agree (hacc : s.Accord (fun _ => True) u) :
    Agree (Accord fun _ => True) (s.step x) (u.step x) := by
  have hK : ∀ q ∈ x.permission?, True := fun _ _ => trivial
  cases hs : s.step x with
  | some y =>
    obtain ⟨u', hu, hacc'⟩ := hacc.step hK hs
    rw [hu]
    exact .some ⟨rfl, hacc'⟩
  | none =>
    cases hu : u.step x with
    | none => exact .none
    | some y =>
      obtain ⟨s', hs', -⟩ := hacc.symm.step hK hu
      cases hs.symm.trans hs'

theorem Accord.run_history (hacc : s.Accord (fun _ => True) u) (xs : List Step) :
    (s.run xs).map (·.1) = (u.run xs).map (·.1) := by
  have hagree := runSteps_agree (f := Session.step) (g := Session.step)
    (fun x _ _ h => Accord.step_agree (x := x) h) xs hacc
  simp only [run]
  generalize runSteps Session.step xs s = a at hagree ⊢
  generalize runSteps Session.step xs u = b at hagree ⊢
  cases hagree with
  | none => rfl
  | some h => exact congrArg some h.1

theorem Untroubled.step (hs : s.Untroubled st) (h : s.step x = some (e, s')) :
    ∃ st', s'.Untroubled st' := by
  have hself : s.Accord (fun _ => True) s := ⟨st, st, hs, hs, fun _ _ => rfl, rfl, rfl⟩
  obtain ⟨u', -, st', -, hs', -⟩ := hself.step (fun _ _ => trivial) h
  exact ⟨st', hs'⟩

theorem Untroubled.run {h : List Event} (hs : s.Untroubled st) (hrun : s.run xs = some (h, s')) :
    ∃ st', s'.Untroubled st' := by
  refine runSteps_keeps (P := fun _ s => ∃ st, s.Untroubled st) ?_ (h := []) ⟨st, hs⟩ hrun
  intro x _ _ _ e s' hk he
  obtain ⟨st, hst⟩ := hk
  exact hst.step he

theorem Untroubled.perform_named {a : Authority} (hs : s.Untroubled st)
    (ho : o.permission?.isSome = true) (hn : s.standings[n]? = some a) :
    ∃ s', s.perform n o = some ((a.settle s.surroundings.providers o st).1, s') ∧
      s'.Untroubled (a.settle s.surroundings.providers o st).2 ∧ s'.standings = s.standings ∧
      s'.surroundings.providers = a.consults s.surroundings.providers o := by
  obtain ⟨r, s', hp⟩ := exists_perform_of_standings hn o
  obtain ⟨b, hm, rfl, hs', hstand, hprov⟩ := hs.perform hp
  cases hn.symm.trans hm
  refine ⟨s', hp, hs', ?_, hprov⟩
  obtain ⟨hlt, hget⟩ := List.getElem?_eq_some_iff.1 hn
  rw [hstand, Operation.rebinds_of_permission? ho, ← hget, List.set_getElem_self]

theorem fits_of_permission? (ho : o.permission? = some p) (k : Nat) : o.fits k = true := by
  cases o with
  | bind i => cases ho
  | _ => rfl

theorem exists_perform_of_permission? (h : x.permission? = some p) :
    ∃ n o, x = .perform n o ∧ o.permission? = some p := by
  cases x with
  | perform n o => exact ⟨n, o, rfl, h⟩
  | _ => cases h

end Session

end AccessControl
