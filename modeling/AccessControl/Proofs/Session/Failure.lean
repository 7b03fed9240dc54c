import AccessControl.Proofs.Session.Outcome
import AccessControl.Proofs.Session.Undisturbed
import AccessControl.Proofs.Session.Without

/-!
# Failed operations

Whatever fails, an operation that answers with an error leaves the store as it was, unless it is a
deletion that revoked all grants and then came to nothing. Such a deletion can be made again.
-/

namespace AccessControl

open Dialogue (Exchange Answers)

/-- What a failed operation leaves of a store. -/
structure Store.Spared (o : Operation) (st st' : Store) : Prop where
  contains : ∀ q, st'.Contains q ↔ st.Contains q
  holds : ∀ q id, st'.Holds q id → st.Holds q id
  others : ∀ q, o.permission? ≠ some q → st'.roles? q = st.roles? q

/-- A deletion whose grants were revoked and which then failed. -/
def Interrupted (p : Permission) (t : List (Exchange Need.Answer)) : Prop :=
  ∃ e, storeCalls t = [⟨.revokeAll p, .ok ()⟩, ⟨.delete p, .error e⟩]

namespace Store

variable {st st' : Store} {p : Permission} {k : StoreCall}

theorem spared_refl (o : Operation) (st : Store) : Spared o st st :=
  ⟨fun _ => Iff.rfl, fun _ _ h => h, fun _ _ => rfl⟩

theorem spared_setRoles (st : Store) (p : Permission) :
    Spared (.delete p) st (st.setRoles p []) where
  contains _ := contains_setRoles
  holds q id h := by
    have hr : (apply (.revokeAll p) st).2 = st.setRoles p [] := rfl
    rw [← hr, holds_revokeAll] at h
    exact h.1
  others q hq := by
    have hpq : p ≠ q := fun h => hq (congrArg some h)
    rw [roles?_setRoles, if_neg hpq]

theorem ReceivesAll.eq_of_failed {x : k.Result} {err : AuthorityError}
    (h : st.ReceivesAll [⟨k, x⟩] st') (hx : x.mapError .store = .error err) : st' = st := by
  obtain ⟨m, hm, rfl⟩ := h
  cases x with
  | error e => exact hm.eq_of_error rfl
  | ok a => cases hx

end Store

theorem Interrupted.eq_setRoles {p : Permission} {t : List (Exchange Need.Answer)} {st st' : Store}
    (h : Interrupted p t) (hs : st.ReceivesAll (storeCalls t) st') : st' = st.setRoles p [] := by
  obtain ⟨e, he⟩ := h
  rw [he] at hs
  obtain ⟨m, hm, st', hd, rfl⟩ := hs
  exact (hd.eq_of_error rfl).trans (hm.eq_of_ok rfl)

namespace Authority

variable {a a' : Authority} {o : Operation} {r : o.Result} {t : List (Exchange Need.Answer)}
  {roles : List Role} {err : AuthorityError} {st st' : Store}

theorem Errand.store_of_error (he : Errand roles o t r) (hr : r = .error err)
    (hs : st.ReceivesAll (storeCalls t) st') :
    st' = st ∨ ∃ p, o = .delete p ∧ Interrupted p t ∧ st' = st.setRoles p [] := by
  cases he with
  | stopped =>
    obtain ⟨m, hm, rfl⟩ := hs
    exact .inl (hm.eq_of_error rfl)
  | @delete p x =>
    obtain ⟨m, hm, hs⟩ := hs
    have hm : m = st.setRoles p [] := hm.eq_of_ok rfl
    have hst : st' = m := Store.ReceivesAll.eq_of_failed hs hr
    cases x with
    | error e => exact .inr ⟨p, rfl, ⟨e, rfl⟩, hst.trans hm⟩
    | ok u => cases hr
  | _ => exact .inl (Store.ReceivesAll.eq_of_failed hs hr)

theorem Course.store_of_error (hc : Course a o t r a') (herr : r = .error err)
    (hs : st.ReceivesAll (storeCalls t) st') :
    st' = st ∨ ∃ p, o = .delete p ∧ Interrupted p t ∧ st' = st.setRoles p [] := by
  cases hc with
  | bind i => cases herr
  | unbind => cases herr
  | roleless hp => cases herr
  | unbound hp => exact .inl hs.symm
  | unresolved hp => exact .inl hs.symm
  | unready hn hr =>
    rw [storeCalls_append, hn.storeCalls_eq, hr.storeCalls_eq] at hs
    exact .inl hs.symm
  | served hn hr he =>
    have hcalls {t₀ t t' : List (Exchange Need.Answer)} (h₀ : storeCalls t₀ = [])
        (h : storeCalls t = []) : storeCalls (t₀ ++ t ++ t') = storeCalls t' := by simp [h₀, h]
    rw [hcalls hn.storeCalls_eq hr.storeCalls_eq] at hs
    simp only [Interrupted, hcalls hn.storeCalls_eq hr.storeCalls_eq]
    exact he.store_of_error herr hs

end Authority

namespace Session

variable {s s' : Session} {n m : Nat} {p : Permission} {st : Store}

def withStore (st : Store) (s : Session) : Session :=
  { s with surroundings := { s.surroundings with source := .memory st } }

theorem without_eq_withStore (hs : s.surroundings.source = .memory st) :
    s.without p = s.withStore (st.remove p) := by
  simp only [without, Surroundings.without, withStore, hs, Source.without]

/-- No failure hits a deletion by one of the authorities: the store is open or opens, and both calls
reach it. -/
structure Unhindered (m : Nat) (p : Permission) (s : Session) : Prop where
  ready : ∃ a, s.authorities[m]? = some a ∧ (a.opened = true ∨
    a.Configured ∧ s.surroundings.openFaults.head?.getD none = none)
  revokeAll : s.surroundings.fault? (.revokeAll p) = none
  delete : s.surroundings.fault? (.delete p) = none

end Session

namespace Authority

variable {own : PermissionConfig} {a a' : Authority} {p : Permission} {s u : Surroundings}
  {st : Store} {t : List (Exchange Need.Answer)} {x : Except AuthorityError Authority}

theorem Readying.of_unhindered (hr : Readying a t x)
    (ha : a.opened = true ∨ a.Configured ∧ s.openFaults.head?.getD none = none)
    (hs : s.source = .memory st) (h : Answers (Surroundings.answer own) t s u) :
    (∃ a', x = .ok a') ∧ u.source = .memory st ∧ ∀ k, u.fault? k = s.fault? k := by
  cases hr with
  | held ho =>
    cases h
    exact ⟨⟨a, rfl⟩, hs, fun _ => rfl⟩
  | sourceless ho hn =>
    rcases ha with ho' | ⟨hc, -⟩
    · rw [ho] at ho'
      cases ho'
    · have hsource := hc.source
      rw [hn] at hsource
      cases hsource
  | unconfigured ho _ hn =>
    rcases ha with ho' | ⟨hc, -⟩
    · rw [ho] at ho'
      cases ho'
    · obtain ⟨c, hc⟩ := hc.config
      rw [hn] at hc
      cases hc
  | @refused c e ho _ hn =>
    rcases ha with ho' | ⟨-, hf⟩
    · rw [ho] at ho'
      cases ho'
    · have he := (Surroundings.answerOpen_memory hs c).2
      rw [hf] at he
      exact absurd (he.symm.trans h.1) nofun
  | @opening c ho _ _ =>
    obtain ⟨-, rfl⟩ := h
    exact ⟨⟨_, rfl⟩, (Surroundings.answerOpen_memory hs c).1,
      fun k => Surroundings.fault?_answerOpen⟩

theorem Errand.deletion_of_unfaulted {roles : List Role} {r : Except AuthorityError Unit}
    (he : Errand roles (.delete p) t r) (hs : s.source = .memory st)
    (hrevoke : s.fault? (.revokeAll p) = none) (hdelete : s.fault? (.delete p) = none)
    (h : Answers (Surroundings.answer own) t s u) :
    ∃ st', u.source = .memory st' ∧ Answers Store.apply (storeCalls t) st st' := by
  obtain ⟨hr, hm⟩ := Surroundings.answerCall_of_unfaulted own hs hrevoke
  cases he with
  | stopped => exact absurd (hr.symm.trans h.1) nofun
  | @delete _ x =>
    obtain ⟨-, hx, hu⟩ := h
    have hk : (StoreCall.revokeAll p).method ≠ (StoreCall.delete p).method := nofun
    have hf : (s.answerCall own (.revokeAll p)).2.fault? (.delete p) = none := by
      rw [Surroundings.fault?_answerCall hk, hdelete]
    obtain ⟨hr', hm'⟩ := Surroundings.answerCall_of_unfaulted own hm hf
    refine ⟨_, hu ▸ hm', rfl, hr'.symm.trans hx, rfl⟩

end Authority

namespace Session

variable {s s' : Session} {n m : Nat} {p : Permission} {st : Store} {o : Operation}
  {err : AuthorityError}

theorem Unhindered.perform_delete (hu : s.Unhindered m p)
    (hs : s.surroundings.source = .memory st) :
    ∃ r s', s.perform m (.delete p) = some (r, s') ∧
      s'.surroundings.source = .memory (st.remove p) ∧
      (r = .ok () ↔ st.Contains p) ∧ (r = .error (.store (.notFound p)) ↔ ¬ st.Contains p) := by
  obtain ⟨a, hm, hready⟩ := hu.ready
  obtain ⟨r, s', hp⟩ := exists_perform hm (.delete p)
  refine ⟨r, s', hp, ?_⟩
  obtain ⟨b, a', hb, hc, ha, -⟩ := perform_course hp
  cases hm.symm.trans hb
  generalize s.askedFor m (.delete p) = t at hc ha
  cases hc with
  | @unready _ t₀ t _ _ hn hr =>
    cases hn
    obtain ⟨⟨a', hx⟩, -⟩ := hr.of_unhindered hready hs ha
    cases hx
  | @served _ t₀ t t' roles _ _ hn hr he =>
    cases hn
    obtain ⟨u, hopen, ha⟩ := Dialogue.answers_append.1 ha
    obtain ⟨-, hsource, hfault⟩ := hr.of_unhindered hready hs hopen
    have hrevoke := (hfault (.revokeAll p)).trans hu.revokeAll
    have hdelete := (hfault (.delete p)).trans hu.delete
    obtain ⟨st', hst', hcalls⟩ := he.deletion_of_unfaulted hsource hrevoke hdelete ha
    obtain ⟨lookup, -, hon⟩ := he.onStore (.managing (a := a) rfl) hcalls
    have hsnd : ((Operation.delete p).onStore lookup st).2 = st.remove p := Operation.delete_snd
    rw [hon] at hsnd
    have hfst : ((Operation.delete p).onStore lookup st).1 = r := congrArg Prod.fst hon
    rw [← hfst]
    exact ⟨hsnd ▸ hst', Operation.delete_fst_iff⟩

/-- A deletion that was interrupted can be made again: after any steps that do not name the
permission, an unhindered one succeeds if it exists, and leaves the store that the same steps leave
after a deletion whose calls both reached the store. -/
def Recovers (p : Permission) (st : Store) (s : Session) : Prop :=
  ∀ xs evs s₁ m, s.run xs = some (evs, s₁) → (∀ x ∈ xs, x.permission? ≠ some p) →
    s₁.Unhindered m p →
    ∃ st₁ r s₂ s₃, s₁.surroundings.source = .memory st₁ ∧ (st₁.Contains p ↔ st.Contains p) ∧
      s₁.perform m (.delete p) = some (r, s₂) ∧ (r = .ok () ↔ st₁.Contains p) ∧
      (r = .error (.store (.notFound p)) ↔ ¬ st₁.Contains p) ∧
      (s.withStore (Store.applyAll [.revokeAll p, .delete p] st)).run xs = some (evs, s₃) ∧
      s₂.surroundings.source = s₃.surroundings.source

theorem applyAll_deletion : Store.applyAll [.revokeAll p, .delete p] st = st.remove p := by
  have h : ((Operation.delete p).onStore (fun _ => .ok []) st).2 = st.remove p :=
    Operation.delete_snd
  exact h

theorem recovers (hs : s.surroundings.source = .memory (st.setRoles p [])) : s.Recovers p st := by
  intro xs evs s₁ m hrun hx hu
  obtain ⟨st₁, hst₁, hroles⟩ := run_roles? hs hx hrun
  obtain ⟨r, s₂, hp, hsource, hok, herr⟩ := hu.perform_delete hst₁
  have hcontains : st₁.Contains p ↔ st.Contains p := by
    rw [Store.contains_iff_isSome, hroles, ← Store.contains_iff_isSome, Store.contains_setRoles]
  -- the steps between do not name the permission, so they can be taken without it as well
  have htwin := run_without hx hrun
  rw [without_eq_withStore hs, Store.remove_setRoles_self] at htwin
  refine ⟨st₁, r, s₂, s₁.without p, hst₁, hcontains, hp, hok, herr, ?_, ?_⟩
  · rw [applyAll_deletion]
    exact htwin
  · rw [hsource]
    exact (Surroundings.without_source hst₁).symm

/-- Whatever fails in it, an operation that answers with an error spares the store; it changes it
only as an interrupted deletion, which leaves the permission without holders and can be made
again. -/
theorem failure_spares (hs : s.surroundings.source = .memory st)
    (h : s.perform n o = some (.error err, s')) :
    ∃ st', s'.surroundings.source = .memory st' ∧ st.Spared o st' ∧
      ((∀ p, o = .delete p → ¬ Interrupted p (s.askedFor n o)) → st' = st) ∧
      ∀ p, o = .delete p → Interrupted p (s.askedFor n o) →
        (st.Contains p → st'.roles? p = some []) ∧ s'.Recovers p st := by
  obtain ⟨a, a', -, hc, ha, -⟩ := perform_course h
  obtain ⟨st', hst', hr⟩ := Surroundings.receives_of_answers hs ha
  refine ⟨st', hst', ?_, ?_, fun p ho hi => ?_⟩
  · rcases hc.store_of_error rfl hr with rfl | ⟨p, rfl, -, rfl⟩
    · exact Store.spared_refl o st'
    · exact Store.spared_setRoles st p
  · intro hi
    rcases hc.store_of_error rfl hr with hst | ⟨p, ho, hp, -⟩
    · exact hst
    · exact absurd hp (hi p ho)
  · obtain rfl : st' = st.setRoles p [] := hi.eq_setRoles hr
    refine ⟨fun ⟨ids, hids⟩ => ?_, recovers hst'⟩
    rw [Store.roles?_setRoles, if_pos rfl, hids, Option.map_some]

theorem failure_spares_interrupted :
    let p : Permission := ⟨"dashboard-1", "view"⟩
    let q : Permission := ⟨"dashboard-1", "edit"⟩
    let st : Store := ⟨[(p, ["ops"]), (q, ["qa"])]⟩
    let s : Session := ⟨[.new true (some .standard) none],
      ⟨.memory st, [], [], [⟨.delete, 1, fun _ => .storage "disk full"⟩], 0, []⟩⟩
    ∃ s' evs s₁ s₂, s.perform 0 (.delete p) = some (.error (.store (.storage "disk full")), s') ∧
      s'.surroundings.source = .memory ⟨[(p, []), (q, ["qa"])]⟩ ∧
      s'.run [.perform 0 (.grant q ⟨"ops", "Operators"⟩)] = some (evs, s₁) ∧
      s₁.perform 0 (.delete p) = some (.ok (), s₂) := by
  intro p q st s
  have hfail : s.perform 0 (.delete p) = some (.error (.store (.storage "disk full")), _) := rfl
  have hs : s.surroundings.source = .memory st := rfl
  obtain ⟨st', -, -, -, hi⟩ := failure_spares hs hfail
  obtain ⟨-, hrec⟩ := hi p rfl ⟨_, rfl⟩
  obtain ⟨st₁, r, s₂, -, hst₁, hc, hdel, hok, -⟩ :=
    hrec [.perform 0 (.grant q ⟨"ops", "Operators"⟩)] _ _ 0 rfl (by decide)
      ⟨⟨_, rfl, .inl rfl⟩, rfl, rfl⟩
  obtain rfl : r = .ok () := hok.2 (hc.2 ⟨_, rfl⟩)
  exact ⟨_, _, _, s₂, hfail, rfl, rfl, hdel⟩

end Session

end AccessControl
