import AccessControl.Proofs.Session.Accord

/-!
# Operations on two permissions

Operations on two permissions answer the same in either order, and leave sessions in accord on all
permissions. If both ask one service, its replies come in the order of the operations.
-/

namespace AccessControl

namespace Authority

variable {a b : Authority} {o o' : Operation} {ps qs : List Provider} {p : Permission} {st : Store}

theorem roles?_settle_comm (ho : o.permission? ≠ some p) :
    (b.settle qs o' (a.settle ps o st).2).2.roles? p =
      (a.settle ps o (b.settle qs o' st).2).2.roles? p := by
  rw [roles?_settle_of_ne ho]
  exact roles?_settle_congr (roles?_settle_of_ne ho)

end Authority

/-- Providers with the replies for two operations in the other order, where the first of them left
them as `ps₁` and the second as `ps₂`. -/
def swappedProviders (ps ps₁ ps₂ : List Provider) : List Provider :=
  ps.mapIdx fun i q => q.swapped (ps₁[i]?.getD q) (ps₂[i]?.getD q)

section

variable {a b : Authority} {o o' : Operation} {ps : List Provider} {st : Store}

theorem getElem?_swappedProviders (a b : Authority) (o o' : Operation) (ps : List Provider)
    (i : ProviderId) :
    (swappedProviders ps (a.consults ps o) (b.consults (a.consults ps o) o'))[i]? =
      ps[i]?.map fun q => q.swapped (q.asked (a.asks i o))
        ((q.asked (a.asks i o)).asked (b.asks i o')) := by
  rw [swappedProviders, List.getElem?_mapIdx, Authority.getElem?_consults,
    Authority.getElem?_consults, Authority.getElem?_consults]
  cases ps[i]? <;> rfl

theorem settle_swapped_first :
    b.settle (swappedProviders ps (a.consults ps o) (b.consults (a.consults ps o) o')) o' st =
      b.settle (a.consults ps o) o' st := by
  refine Authority.settle_congr_lookups fun i user hi => ?_
  rw [getElem?_swappedProviders, Authority.getElem?_consults]
  cases ps[i]? with
  | none => rfl
  | some q =>
    obtain ⟨hy, -, -⟩ := Provider.lookup_swapped q (a.asks i o) (b.asks i o')
    exact congrArg some (hy user hi)

theorem settle_swapped_last :
    a.settle (b.consults (swappedProviders ps (a.consults ps o)
      (b.consults (a.consults ps o) o')) o') o st = a.settle ps o st := by
  refine Authority.settle_congr_lookups fun i user hi => ?_
  rw [Authority.getElem?_consults, getElem?_swappedProviders]
  cases ps[i]? with
  | none => rfl
  | some q =>
    obtain ⟨-, hx, -⟩ := Provider.lookup_swapped q (a.asks i o) (b.asks i o')
    exact congrArg some (hx user hi)

theorem unlogged_swapped :
    (a.consults (b.consults (swappedProviders ps (a.consults ps o)
      (b.consults (a.consults ps o) o')) o') o).map Provider.unlogged =
        (b.consults (a.consults ps o) o').map Provider.unlogged := by
  refine List.ext_getElem? fun i => ?_
  rw [List.getElem?_map, List.getElem?_map, Authority.getElem?_consults,
    Authority.getElem?_consults, getElem?_swappedProviders, Authority.getElem?_consults,
    Authority.getElem?_consults]
  cases ps[i]? with
  | none => rfl
  | some q =>
    obtain ⟨-, -, hlast⟩ := Provider.lookup_swapped q (a.asks i o) (b.asks i o')
    exact congrArg some hlast

end

namespace Session

/-- A session whose services have the replies for two steps in the other order, where the first of
them led to `s₁` and the second to `s₂`. -/
def swapped (s s₁ s₂ : Session) : Session :=
  s.withProviders <| swappedProviders s.surroundings.providers s₁.surroundings.providers
    s₂.surroundings.providers

variable {s s₁ s₂ : Session} {st : Store} {n m : Nat} {o o' : Operation} {r : o.Result}
  {r' : o'.Result} {x y : Step} {e e' : Event} {p q : Permission}

theorem swapped_of_no_service
    (hs : ∀ e script, Provider.service e script ∉ s.surroundings.providers) :
    s.swapped s₁ s₂ = s := by
  have hid : swappedProviders s.surroundings.providers s₁.surroundings.providers
      s₂.surroundings.providers = s.surroundings.providers :=
    Provider.mapIdx_withReplies hs _
  rw [swapped, hid]
  rfl

theorem Untroubled.perform_comm (hs : s.Untroubled st) (ho : o.permission? = some p)
    (ho' : o'.permission? = some q) (hpq : p ≠ q) (hp : s.perform n o = some (r, s₁))
    (hp' : s₁.perform m o' = some (r', s₂)) :
    ∃ u₁ u₂, (s.swapped s₁ s₂).perform m o' = some (r', u₁) ∧ u₁.perform n o = some (r, u₂) ∧
      s₂.Accord (fun _ => True) u₂ := by
  have hsome : o.permission?.isSome = true := by rw [ho]; rfl
  have hsome' : o'.permission?.isSome = true := by rw [ho']; rfl
  obtain ⟨a, hn, -⟩ := hs.perform hp
  obtain ⟨_, hp₁, hs₁, hstand₁, hprov₁⟩ := hs.perform_named hsome hn
  cases hp₁.symm.trans hp
  obtain ⟨b, hm, -⟩ := hs₁.perform hp'
  obtain ⟨_, hp₂, hs₂, hstand₂, hprov₂⟩ := hs₁.perform_named hsome' hm
  cases hp₂.symm.trans hp'
  rw [hprov₁] at hprov₂ hs₂
  have hu : (s.swapped s₁ s₂).Untroubled st := hs.withProviders _
  have hproviders : (s.swapped s₁ s₂).surroundings.providers =
      swappedProviders s.surroundings.providers (a.consults s.surroundings.providers o)
        (b.consults (a.consults s.surroundings.providers o) o') := by
    rw [← hprov₂, ← hprov₁]
    rfl
  obtain ⟨u₁, hq₁, hu₁, hstand₃, hprov₃⟩ := hu.perform_named hsome' (hstand₁ ▸ hm)
  obtain ⟨u₂, hq₂, hu₂, hstand₄, hprov₄⟩ := hu₁.perform_named hsome (hstand₃ ▸ hn)
  rw [hproviders, settle_swapped_first] at hq₁
  rw [hprov₃, hproviders, settle_swapped_last, settle_swapped_first] at hq₂ hu₂
  refine ⟨u₁, u₂, ?_, ?_, _, _, hs₂, hu₂, ?_, ?_, ?_⟩
  · rw [hq₁, hprov₁]
    congr 2
    refine (Authority.settle_fst_congr fun z hz => ?_).symm
    cases ho'.symm.trans hz
    exact Authority.roles?_settle_of_ne (by simp [ho, hpq])
  · rw [hq₂]
    congr 2
    refine Authority.settle_fst_congr fun z hz => ?_
    cases ho.symm.trans hz
    exact Authority.roles?_settle_of_ne (by simp [ho', hpq.symm])
  · intro z _
    by_cases hz : o.permission? = some z
    · have hz' : o'.permission? ≠ some z := by
        rw [ho'] at *
        rw [ho] at hz
        simpa [Option.some.inj hz] using hpq.symm
      exact (Authority.roles?_settle_comm hz').symm
    · exact Authority.roles?_settle_comm hz
  · rw [hstand₂, hstand₁, hstand₄, hstand₃]
    rfl
  · rw [hprov₂, hprov₄, hprov₃, hproviders, unlogged_swapped]

theorem Untroubled.step_comm (hs : s.Untroubled st) (hx : x.permission? = some p)
    (hy : y.permission? = some q) (hpq : p ≠ q) (hstep : s.step x = some (e, s₁))
    (hstep' : s₁.step y = some (e', s₂)) :
    ∃ u, (s.swapped s₁ s₂).run [y, x] = some ([e', e], u) ∧ s₂.Accord (fun _ => True) u := by
  obtain ⟨n, o, rfl, ho⟩ := exists_perform_of_permission? hx
  obtain ⟨m, o', rfl, ho'⟩ := exists_perform_of_permission? hy
  obtain ⟨-, r, hp, rfl⟩ := step_perform_eq_some hstep
  obtain ⟨-, r', hp', rfl⟩ := step_perform_eq_some hstep'
  obtain ⟨u₁, u₂, hq₁, hq₂, hacc⟩ := hs.perform_comm ho ho' hpq hp hp'
  have hstep₁ := step_perform (fits_of_permission? ho' _) hq₁
  have hstep₂ := step_perform (fits_of_permission? ho _) hq₂
  refine ⟨u₂, ?_, hacc⟩
  simp only [Session.run, runSteps, hstep₁, hstep₂]

end Session

end AccessControl
