import AccessControl.Proofs.Session.Requests
import AccessControl.Proofs.Session.Undisturbed

/-!
# What settles an operation

Over a store in memory and without faults an operation is settled by what its authority was given,
what the provider says about the user, and what the store says about the permission. Whether the
store was open before is of no account.
-/

namespace AccessControl

open Dialogue (Exchange Answers)

namespace Operation

variable {lookup lookup' : String → Except AuthorityError (List Group)} {st st' : Store}
  {o : Operation} {p : Permission}

def needsStore (lookup : String → Except AuthorityError (List Group)) : Operation → Bool
  | .check user _ =>
    match lookup user with
    | .error _ => false
    | .ok gs => !gs.isEmpty
  | o => o.manages

theorem onStore_of_manages (ho : o.manages = true) :
    o.onStore lookup st = o.onStore lookup' st := by
  cases o with
  | check user p => cases ho
  | _ => rfl

theorem roles?_onStore_of_ne (ho : o.permission? ≠ some p) :
    (o.onStore lookup st).2.roles? p = st.roles? p := by
  have hcall (k : StoreCall) (hk : some k.permission ≠ some p) (st : Store) :
      (st.report k).2.roles? p = st.roles? p :=
    Store.roles?_apply_of_ne fun h => hk (congrArg some h)
  cases o with
  | add q => exact hcall (.insert q) ho st
  | delete q => exact (hcall (.delete q) ho _).trans (hcall (.revokeAll q) ho st)
  | grant q r => exact hcall (.grant q r) ho st
  | revokeAll q => exact hcall (.revokeAll q) ho st
  | revoke q r => exact hcall (.revoke q r) ho st
  | grantedRoles q => exact hcall (.grantedRoles q) ho st
  | check user q => rw [check_snd]
  | bind i => rfl
  | unbind => rfl

theorem onStore_congr (ho : ∀ q ∈ o.permission?, q = p) (h : st.roles? p = st'.roles? p) :
    (o.onStore lookup st).1 = (o.onStore lookup st').1 ∧
      (o.onStore lookup st).2.roles? p = (o.onStore lookup st').2.roles? p := by
  have hcall (k : StoreCall) (hk : k.permission = p) {st st' : Store}
      (h : st.roles? p = st'.roles? p) :
      (st.report k).1 = (st'.report k).1 ∧
        (st.report k).2.roles? p = (st'.report k).2.roles? p := by
    have hc := Store.apply_congr hk h
    exact ⟨congrArg (Except.mapError AuthorityError.store) hc.1, hc.2⟩
  cases o with
  | add q => exact hcall (.insert q) (ho q rfl) h
  | delete q => exact hcall (.delete q) (ho q rfl) (hcall (.revokeAll q) (ho q rfl) h).2
  | grant q r => exact hcall (.grant q r) (ho q rfl) h
  | revokeAll q => exact hcall (.revokeAll q) (ho q rfl) h
  | revoke q r => exact hcall (.revoke q r) (ho q rfl) h
  | grantedRoles q => exact hcall (.grantedRoles q) (ho q rfl) h
  | check user q =>
    simp only [onStore]
    cases lookup user with
    | error e => exact ⟨rfl, h⟩
    | ok gs =>
      dsimp only
      split
      · exact ⟨rfl, h⟩
      · exact hcall (.hasAny _ q) (ho q rfl) h
  | bind i => exact ⟨rfl, h⟩
  | unbind => exact ⟨rfl, h⟩

theorem permission?_of_manages (ho : o.manages = true) : o.permission?.isSome = true := by
  cases o with
  | bind i => cases ho
  | unbind => cases ho
  | _ => rfl

theorem rebinds_of_permission? {bound : Option ProviderId} (ho : o.permission?.isSome = true) :
    o.rebinds bound = bound := by
  cases o with
  | bind i => cases ho
  | unbind => cases ho
  | _ => rfl

end Operation

namespace Authority

/-- An authority but for whether its store is open. -/
def closed (a : Authority) : Authority := { a with opened := false }

def lack? (a : Authority) : Option AuthorityError :=
  if !a.hasSource then some (.configuration "no data source is bound")
  else if a.config.isNone then some (.configuration "no permission configuration is set")
  else none

def learns (a : Authority) (ps : List Provider) (user : String) :
    Except AuthorityError (List Group) :=
  match a.provider with
  | none => .error (.configuration "no identity provider is bound")
  | some i =>
    match ps[i]? with
    | none => .error (.roleResolution user (.unavailable "no such provider"))
    | some p => (p.lookup user).1.mapError (.roleResolution user)

def asks (a : Authority) (i : ProviderId) : Operation → Option String
  | .check user _ => if a.provider = some i then some user else none
  | _ => none

def consults (a : Authority) (ps : List Provider) : Operation → List Provider
  | .check user _ => a.provider.elim ps fun i => ps.modify i fun p => (p.lookup user).2
  | _ => ps

def settle (a : Authority) (ps : List Provider) (o : Operation) (st : Store) : o.Result × Store :=
  match if o.needsStore (a.learns ps) then a.lack? else none with
  | some e => (.error e, st)
  | none => o.onStore (a.learns ps) st

variable {a a' : Authority} {o : Operation} {r : o.Result} {t t₀ : List (Exchange Need.Answer)}
  {s u : Surroundings} {st st' : Store} {roles : List Role} {p : Permission}
  {ps qs : List Provider} {user : String} {own : PermissionConfig}

theorem learns_of_unbound (ha : a.provider = none) :
    a.learns ps user = .error (.configuration "no identity provider is bound") := by
  simp only [learns, ha]

theorem learns_eq (s : Surroundings) (user : String) {i : ProviderId} (ha : a.provider = some i) :
    a.learns s.providers user = (s.answerGroups i user).1.mapError (.roleResolution user) := by
  simp only [learns, ha, Surroundings.answerGroups]
  cases s.providers[i]? <;> rfl

theorem learns_of_error {i : ProviderId} {e : IdentityError} (ha : a.provider = some i)
    (hg : (s.answerGroups i user).1 = .error e) :
    a.learns s.providers user = .error (.roleResolution user e) := by
  rw [learns_eq s user ha, hg, mapError_error]

theorem learns_of_ok {i : ProviderId} {gs : List Group} (ha : a.provider = some i)
    (hg : (s.answerGroups i user).1 = .ok gs) : a.learns s.providers user = .ok gs := by
  rw [learns_eq s user ha, hg, mapError_ok]

theorem providers_answerGroups (s : Surroundings) (user : String) (p : Permission) {i : ProviderId}
    (ha : a.provider = some i) :
    (s.answerGroups i user).2.providers = a.consults s.providers (.check user p) := by
  simp only [consults, ha, Option.elim_some, Surroundings.answerGroups]
  cases hp : s.providers[i]? with
  | none =>
    rw [List.modify_eq_self]
    exact List.getElem?_eq_none_iff.1 hp
  | some p =>
    obtain ⟨hi, rfl⟩ := List.getElem?_eq_some_iff.1 hp
    refine List.ext_getElem? fun j => ?_
    rw [List.getElem?_set, List.getElem?_modify]
    grind

theorem settle_of_idle (h : o.needsStore (a.learns ps) = false) :
    a.settle ps o st = o.onStore (a.learns ps) st := by
  simp only [settle, h, Bool.false_eq_true, if_false]

theorem settle_of_lack {e : AuthorityError} (h : o.needsStore (a.learns ps) = true)
    (he : a.lack? = some e) : a.settle ps o st = (.error e, st) := by
  simp only [settle, h, if_true, he]

theorem settle_of_served (h : a.lack? = none) :
    a.settle ps o st = o.onStore (a.learns ps) st := by
  simp only [settle, h, ite_self]

theorem roles?_settle_of_ne (ho : o.permission? ≠ some p) :
    (a.settle ps o st).2.roles? p = st.roles? p := by
  simp only [settle]
  split
  · rfl
  · exact Operation.roles?_onStore_of_ne ho

theorem settle_congr (ho : ∀ q ∈ o.permission?, q = p) (h : st.roles? p = st'.roles? p) :
    (a.settle ps o st).1 = (a.settle ps o st').1 ∧
      (a.settle ps o st).2.roles? p = (a.settle ps o st').2.roles? p := by
  simp only [settle]
  split
  · exact ⟨rfl, h⟩
  · exact Operation.onStore_congr ho h

theorem settle_fst_congr (h : ∀ q ∈ o.permission?, st.roles? q = st'.roles? q) :
    (a.settle ps o st).1 = (a.settle ps o st').1 := by
  cases ho : o.permission? with
  | some q =>
    refine (settle_congr (p := q) ?_ (h q ho)).1
    intro q' hq'
    exact Option.some.inj (hq'.symm.trans ho)
  | none =>
    cases o with
    | bind i => rfl
    | unbind => rfl
    | _ => cases ho

theorem roles?_settle_congr (h : st.roles? p = st'.roles? p) :
    (a.settle ps o st).2.roles? p = (a.settle ps o st').2.roles? p := by
  by_cases ho : o.permission? = some p
  · refine (settle_congr ?_ h).2
    intro q hq
    exact Option.some.inj (hq.symm.trans ho)
  · rw [roles?_settle_of_ne ho, roles?_settle_of_ne ho, h]

theorem getElem?_consults (a : Authority) (ps : List Provider) (o : Operation) (i : ProviderId) :
    (a.consults ps o)[i]? = ps[i]?.map (Provider.asked (a.asks i o)) := by
  have hnone : ps[i]? = ps[i]?.map (Provider.asked none) := Option.map_id.symm ▸ rfl
  cases o with
  | check user p =>
    simp only [consults, asks]
    cases ha : a.provider with
    | none => exact hnone
    | some j =>
      rw [Option.elim_some, List.getElem?_modify]
      by_cases hij : j = i
      · subst hij
        simp only [if_true]
        rfl
      · simpa [hij] using hnone
  | _ => exact hnone

theorem length_consults : (a.consults ps o).length = ps.length := by
  cases o with
  | check user p =>
    rw [consults]
    cases a.provider with
    | none => rfl
    | some i => exact List.length_modify ..
  | _ => rfl

theorem settle_congr_lookups (h : ∀ i, ∀ user ∈ a.asks i o,
    (ps[i]?.map fun q => (q.lookup user).1) = qs[i]?.map fun q => (q.lookup user).1) :
    a.settle ps o st = a.settle qs o st := by
  cases o with
  | check user p =>
    have hl : a.learns ps user = a.learns qs user := by
      simp only [learns]
      cases ha : a.provider with
      | none => rfl
      | some i =>
        have hi := h i user (by simp [asks, ha])
        dsimp only
        cases hp : ps[i]? <;> cases hq : qs[i]? <;> simp_all
    rw [settle, settle, Operation.needsStore, Operation.needsStore, Operation.onStore,
      Operation.onStore, hl]
  | _ => rfl

/-- What an operation comes to, with surroundings and an authority that are settled. -/
structure Settled (a : Authority) (o : Operation) (st : Store) (s u : Surroundings) (r : o.Result)
    (a' : Authority) : Prop where
  result : r = (a.settle s.providers o st).1
  undisturbed : u.Undisturbed (a.settle s.providers o st).2
  closed : a'.closed = { a.closed with provider := o.rebinds a.provider }
  sound : a'.Sound
  providers : u.providers = a.consults s.providers o

theorem providers_of_answers (h : Answers (Surroundings.answer own) t s u)
    (ht : ∀ x ∈ t, ∀ i user, x.1 ≠ .groups i user) : u.providers = s.providers := by
  induction t generalizing s with
  | nil => rw [h]
  | cons x t ih =>
    obtain ⟨q, y⟩ := x
    have hrest := ih h.2 fun x hx => ht x (List.mem_cons_of_mem _ hx)
    rw [hrest]
    cases q with
    | store c =>
      obtain ⟨source, he⟩ := Surroundings.answerOpen_snd c s
      simp only [Surroundings.answer, he]
    | call k =>
      obtain ⟨source, he⟩ := Surroundings.answerCall_snd own k s
      simp only [Surroundings.answer, he]
    | groups i user => exact absurd rfl (ht _ List.mem_cons_self i user)

theorem Readying.not_groups {x : Except AuthorityError Authority} (hr : Readying a t x) :
    ∀ y ∈ t, ∀ i user, y.1 ≠ .groups i user := by
  cases hr <;> simp

theorem Errand.not_groups (he : Errand roles o t r) : ∀ y ∈ t, ∀ i user, y.1 ≠ .groups i user := by
  cases he <;> simp

theorem Needing.settles (hn : Needing a o t₀ roles) (h : Answers (Surroundings.answer own) t₀ s u) :
    o.needsStore (a.learns s.providers) = true ∧ u.providers = a.consults s.providers o ∧
      ∀ user p, o = .check user p → ∃ gs, gs ≠ [] ∧ a.learns s.providers user = .ok gs ∧
        roles = Role.ofGroups gs := by
  cases hn with
  | managing ho =>
    cases h
    cases o with
    | check user p => cases ho
    | bind i => cases ho
    | unbind => cases ho
    | _ => exact ⟨rfl, rfl, nofun⟩
  | @checking user p i gs hp hgs =>
    obtain ⟨hg, rfl⟩ := h
    have hl : a.learns s.providers user = .ok gs := learns_of_ok hp hg
    refine ⟨?_, providers_answerGroups s user p hp, ?_⟩
    · simpa [Operation.needsStore, hl] using hgs
    · rintro user p ⟨⟩
      exact ⟨gs, hgs, hl, rfl⟩

theorem Readying.lack?_of_error {e : AuthorityError} (hr : Readying a t (.error e))
    (ho : ∀ y ∈ openings t, y = .ok ()) : a.lack? = some e ∧ t = [] := by
  cases hr with
  | sourceless h hs => exact ⟨by simp [lack?, hs], rfl⟩
  | unconfigured h hs hc => exact ⟨by simp [lack?, hs, hc], rfl⟩
  | refused h hs hc => cases ho _ List.mem_cons_self

theorem Readying.lack?_of_ok (hr : Readying a t (.ok a')) (ha : a.Sound) :
    a.lack? = none ∧ a'.closed = a.closed ∧ a'.Sound := by
  cases hr with
  | held h =>
    obtain ⟨hs, hc⟩ := ha h
    refine ⟨?_, rfl, ha⟩
    simp [lack?, hs, Option.isSome_iff_ne_none.1 hc]
  | opening h hs hc =>
    refine ⟨by simp [lack?, hs, hc], rfl, ?_⟩
    intro _
    exact ⟨hs, by simp [hc]⟩

theorem Errand.onStore_learns (he : Errand roles o t r) (hn : Needing a o t₀ roles)
    (hg : Answers (Surroundings.answer own) t₀ s u)
    (hs : Answers Store.apply (storeCalls t) st st') :
    o.onStore (a.learns s.providers) st = (r, st') := by
  obtain ⟨lookup, -, ho⟩ := he.onStore hn hs
  cases he with
  | @check user p x =>
    obtain ⟨gs, hgs, hl, rfl⟩ := (hn.settles hg).2.2 user p rfl
    simp only [Operation.onStore, hl, List.isEmpty_iff, if_neg hgs]
    exact report_of_answers hs
  | _ =>
    rw [← ho]
    exact Operation.onStore_of_manages rfl

theorem Needing.permission? (hn : Needing a o t₀ roles) : o.permission?.isSome = true := by
  cases hn with
  | managing ho => exact Operation.permission?_of_manages ho
  | checking hp hgs => rfl

theorem settled_of_idle (hn : o.needsStore (a.learns s.providers) = false)
    (hon : o.onStore (a.learns s.providers) st = (r, st')) (hu : u.Undisturbed st')
    (hclosed : a'.closed = { a.closed with provider := o.rebinds a.provider }) (ha : a'.Sound)
    (hp : u.providers = a.consults s.providers o) : Settled a o st s u r a' := by
  have hset : a.settle s.providers o st = (r, st') := (settle_of_idle hn).trans hon
  exact ⟨by rw [hset], hset ▸ hu, hclosed, ha, hp⟩

theorem Course.settled (hc : Course a o t r a') (ha : a.Sound) (hs : s.Undisturbed st)
    (h : Answers (Surroundings.answer own) t s u) : Settled a o st s u r a' := by
  obtain ⟨ho, st', hu, hcalls⟩ := hs.of_answers h
  cases hc with
  | bind i =>
    cases h
    cases hcalls
    exact settled_of_idle rfl rfl hu rfl ha rfl
  | unbind =>
    cases h
    cases hcalls
    exact settled_of_idle rfl rfl hu rfl ha rfl
  | @unbound user p hp =>
    cases h
    cases hcalls
    have hl : a.learns s.providers user = _ := learns_of_unbound hp
    refine settled_of_idle ?_ ?_ hu rfl ha ?_
    · simp only [Operation.needsStore, hl]
    · simp only [Operation.onStore, hl]
    · simp only [consults, hp, Option.elim_none]
  | @unresolved user p i e hp =>
    obtain ⟨hg, rfl⟩ := h
    cases hcalls
    have hl := learns_of_error hp hg
    refine settled_of_idle ?_ ?_ hu rfl ha (providers_answerGroups s user p hp)
    · simp only [Operation.needsStore, hl]
    · simp only [Operation.onStore, hl]
  | @roleless user p i hp =>
    obtain ⟨hg, rfl⟩ := h
    cases hcalls
    have hl := learns_of_ok hp hg
    refine settled_of_idle ?_ ?_ hu rfl ha (providers_answerGroups s user p hp)
    · simp only [Operation.needsStore, hl, List.isEmpty_nil, Bool.not_true]
    · simp only [Operation.onStore, hl, List.isEmpty_nil, if_true]
  | @unready _ t₀ t _ e hn hr =>
    rw [openings_append, hn.openings_eq, List.nil_append] at ho
    obtain ⟨hlack, rfl⟩ := hr.lack?_of_error ho
    rw [List.append_nil] at h hcalls
    rw [hn.storeCalls_eq] at hcalls
    cases hcalls
    obtain ⟨hneeds, hp, -⟩ := hn.settles h
    have hset : a.settle s.providers o st = (.error e, st) := settle_of_lack hneeds hlack
    refine ⟨by rw [hset], hset ▸ hu, ?_, ha, hp⟩
    rw [Operation.rebinds_of_permission? hn.permission?]
    rfl
  | @served _ t₀ t₁ t₂ _ _ _ hn hr he =>
    rw [List.append_assoc] at h
    obtain ⟨m, hg, hrest⟩ := Dialogue.answers_append.1 h
    simp only [storeCalls_append, hn.storeCalls_eq, hr.storeCalls_eq, List.nil_append] at hcalls
    obtain ⟨-, hp, -⟩ := hn.settles hg
    obtain ⟨hlack, hclosed, ha'⟩ := hr.lack?_of_ok ha
    have hset : a.settle s.providers o st = (r, st') :=
      (settle_of_served hlack).trans (he.onStore_learns hn hg hcalls)
    have hproviders : u.providers = m.providers := by
      refine providers_of_answers hrest ?_
      intro x hx
      rcases List.mem_append.1 hx with hx | hx
      · exact hr.not_groups x hx
      · exact he.not_groups x hx
    refine ⟨by rw [hset], hset ▸ hu, ?_, ha', hproviders.trans hp⟩
    rw [hclosed, Operation.rebinds_of_permission? hn.permission?]
    rfl

end Authority

namespace Session

/-- A session over a store in memory in which nothing fails, whatever its authorities lack. -/
structure Untroubled (st : Store) (s : Session) : Prop where
  surroundings : s.surroundings.Undisturbed st
  sound : ∀ a ∈ s.authorities, a.Sound

def standings (s : Session) : List Authority := s.authorities.map Authority.closed

variable {s s' : Session} {st : Store} {n : Nat} {o : Operation} {r : o.Result}

theorem Untroubled.withProviders (hs : s.Untroubled st) (ps : List Provider) :
    (s.withProviders ps).Untroubled st :=
  ⟨hs.surroundings.withProviders ps, hs.sound⟩

theorem Untroubled.perform (hs : s.Untroubled st) (h : s.perform n o = some (r, s')) :
    ∃ a, s.standings[n]? = some a ∧ r = (a.settle s.surroundings.providers o st).1 ∧
      s'.Untroubled (a.settle s.surroundings.providers o st).2 ∧
      s'.standings = s.standings.set n { a with provider := o.rebinds a.provider } ∧
      s'.surroundings.providers = a.consults s.surroundings.providers o := by
  obtain ⟨a, a', hn, hc, ha, hset⟩ := perform_course h
  have hsettled := hc.settled (hs.sound a (List.mem_of_getElem? hn)) hs.surroundings ha
  refine ⟨a.closed, ?_, hsettled.result, ⟨hsettled.undisturbed, ?_⟩, ?_, hsettled.providers⟩
  · simp only [standings, List.getElem?_map, hn, Option.map_some]
  · intro b hb
    rw [hset] at hb
    rcases List.mem_or_eq_of_mem_set hb with hb | rfl
    · exact hs.sound b hb
    · exact hsettled.sound
  · rw [standings, standings, hset, List.map_set, hsettled.closed]
    rfl

end Session

end AccessControl
