import AccessControl.Proofs.Session.Episode
import AccessControl.Proofs.Session.Surroundings

/-!
# Opening the store

An authority opens its store when it first needs it, tries again after an open that failed, and
never opens it twice.
-/

namespace AccessControl

open Dialogue (Exchange Answers)

def successes (ys : List (Except StoreError Unit)) : Nat := ys.countP Except.isOk

theorem successes_append (ys zs : List (Except StoreError Unit)) :
    successes (ys ++ zs) = successes ys + successes zs := List.countP_append

theorem successes_pos_iff {ys : List (Except StoreError Unit)} :
    0 < successes ys ↔ .ok () ∈ ys := by
  rw [successes, List.countP_pos_iff]
  constructor
  · rintro ⟨y, hy, hok⟩
    cases y with
    | error e => cases hok
    | ok u => exact hy
  · exact fun hy => ⟨_, hy, rfl⟩

namespace Authority

variable {a a' : Authority} {o : Operation} {r : o.Result} {t t₀ : List (Exchange Need.Answer)}
  {roles : List Role} {x : Except AuthorityError Authority}

/-- An authority has not been opened by accident: it has what it needs to open a store. -/
def Sound (a : Authority) : Prop :=
  a.opened = true → a.hasSource = true ∧ a.config.isSome = true

/-- How one authority becomes another by attempting some opens, with these outcomes. -/
structure Advances (a a' : Authority) (ys : List (Except StoreError Unit)) : Prop where
  hasSource : a'.hasSource = a.hasSource
  config : a'.config = a.config
  sound : a.Sound → a'.Sound
  opened : a'.opened.toNat = a.opened.toNat + successes ys

theorem advances_refl (a : Authority) : Advances a a [] := ⟨rfl, rfl, id, rfl⟩

theorem Advances.trans {a'' : Authority} {ys zs : List (Except StoreError Unit)}
    (h₁ : Advances a a' ys) (h₂ : Advances a' a'' zs) : Advances a a'' (ys ++ zs) where
  hasSource := h₂.hasSource.trans h₁.hasSource
  config := h₂.config.trans h₁.config
  sound := fun h => h₂.sound (h₁.sound h)
  opened := by rw [h₂.opened, h₁.opened, successes_append, Nat.add_assoc]

theorem Advances.rebind (h : Advances a a' []) (bound : Option ProviderId) :
    Advances a { a' with provider := bound } [] := ⟨h.hasSource, h.config, h.sound, h.opened⟩

theorem Readying.advances_of_error {e : AuthorityError} (hr : Readying a t (.error e)) :
    Advances a a (openings t) := by
  cases hr with
  | sourceless => exact advances_refl a
  | unconfigured => exact advances_refl a
  | refused => exact ⟨rfl, rfl, id, rfl⟩

theorem Readying.advances_of_ok (hr : Readying a t (.ok a')) : Advances a a' (openings t) := by
  cases hr with
  | held => exact advances_refl a
  | opening ho hs hc =>
    refine ⟨rfl, rfl, fun _ _ => ⟨hs, ?_⟩, ?_⟩
    · simp [hc]
    · simp [ho, successes, Except.isOk, Except.toBool]

theorem Course.advances (hc : Course a o t r a') : Advances a a' (openings t) := by
  cases hc with
  | bind i => exact (advances_refl a).rebind (some i)
  | unbind => exact (advances_refl a).rebind none
  | unbound hp => exact advances_refl a
  | unresolved hp => exact advances_refl a
  | roleless hp => exact advances_refl a
  | unready hn hr =>
    rw [openings_append, hn.openings_eq]
    exact hr.advances_of_error
  | served hn hr he =>
    rw [openings_append, openings_append, hn.openings_eq, he.openings_eq, List.append_nil]
    exact hr.advances_of_ok

end Authority

namespace Session

/-- Whether an operation of an authority needs the store: one about permissions and grants does, and
a check does if it finds the user with a group. -/
def NeedsStore (s : Session) (a : Authority) (o : Operation) : Prop :=
  o.manages = true ∨ ∃ user p i gs, o = .check user p ∧ a.provider = some i ∧
    (s.surroundings.answerGroups i user).1 = .ok gs ∧ gs ≠ []

/-- An operation tries to open the store once if it needs it, the authority can open it and none of
the opens it attempted before succeeded, and not otherwise; and it fails as the open does. -/
structure OpensAsNeeded (s : Session) (a : Authority) (o : Operation) (r : o.Result)
    (t : List (Exchange Need.Answer)) (before : List (Except StoreError Unit)) : Prop where
  once : (openings t).length ≤ 1
  attempted : openings t ≠ [] ↔
    s.NeedsStore a o ∧ a.hasSource = true ∧ a.config.isSome = true ∧ .ok () ∉ before
  refused : ∀ e, .error e ∈ openings t → r = .error (.store e) ∧ storeCalls t = []
  sourceless : s.NeedsStore a o → a.hasSource = false →
    r = .error (.configuration "no data source is bound") ∧ openings t = []
  unconfigured : s.NeedsStore a o → a.hasSource = true → a.config = none →
    r = .error (.configuration "no permission configuration is set") ∧ openings t = []

variable {s : Session} {a a' : Authority} {o : Operation} {r : o.Result}
  {t t₀ : List (Exchange Need.Answer)} {u : Surroundings} {roles : List Role}
  {before : List (Except StoreError Unit)}

theorem needsStore_of_needing (hn : a.Needing o t₀ roles)
    (ha : Answers (Surroundings.answer a.own) (t₀ ++ t) s.surroundings u) : s.NeedsStore a o := by
  cases hn with
  | managing ho => exact .inl ho
  | checking hp hgs => exact .inr ⟨_, _, _, _, rfl, hp, ha.1, hgs⟩

theorem not_needsStore_check {user : String} {p : Permission}
    (h : ∀ i gs, a.provider = some i → (s.surroundings.answerGroups i user).1 = .ok gs → gs = []) :
    ¬ s.NeedsStore a (.check user p) := by
  rintro (ho | ⟨_, _, i, gs, ho, hp, hg, hgs⟩)
  · cases ho
  · cases ho
    exact hgs (h i gs hp hg)

theorem opensAsNeeded_of_not_needsStore (hn : ¬ s.NeedsStore a o) (ho : openings t = []) :
    s.OpensAsNeeded a o r t before := by
  constructor <;> simp [ho, hn]

theorem opensAsNeeded_of_course (hc : a.Course o t r a')
    (ha : Answers (Surroundings.answer a.own) t s.surroundings u) (hsound : a.Sound)
    (hbefore : .ok () ∈ before ↔ a.opened = true) : s.OpensAsNeeded a o r t before := by
  cases hc with
  | bind i =>
    refine opensAsNeeded_of_not_needsStore ?_ rfl
    simp [NeedsStore, Operation.manages]
  | unbind =>
    refine opensAsNeeded_of_not_needsStore ?_ rfl
    simp [NeedsStore, Operation.manages]
  | unbound hp =>
    refine opensAsNeeded_of_not_needsStore (not_needsStore_check fun i gs hi => ?_) rfl
    cases hp.symm.trans hi
  | unresolved hp =>
    refine opensAsNeeded_of_not_needsStore (not_needsStore_check fun i gs hi hg => ?_) rfl
    cases hp.symm.trans hi
    cases ha.1.symm.trans hg
  | roleless hp =>
    refine opensAsNeeded_of_not_needsStore (not_needsStore_check fun i gs hi hg => ?_) rfl
    cases hp.symm.trans hi
    cases ha.1.symm.trans hg
    rfl
  | unready hn hr =>
    have hneeds := needsStore_of_needing hn ha
    cases hr with
    | sourceless ho hs => constructor <;> simp [hn.openings_eq, hneeds, hs]
    | unconfigured ho hs hc => constructor <;> simp [hn.openings_eq, hneeds, hs, hc]
    | refused ho hs hc =>
      constructor <;> simp [hn.openings_eq, hn.storeCalls_eq, hneeds, hs, hc, hbefore, ho]
  | served hn hr he =>
    rw [List.append_assoc] at ha
    have hneeds := needsStore_of_needing hn ha
    cases hr with
    | held ho =>
      obtain ⟨hs, hc⟩ := hsound ho
      have hc' : a.config ≠ none := Option.isSome_iff_ne_none.1 hc
      constructor <;> simp [hn.openings_eq, he.openings_eq, hneeds, hs, hc, hc', hbefore, ho]
    | opening ho hs hc =>
      constructor <;> simp [hn.openings_eq, he.openings_eq, hneeds, hs, hc, hbefore, ho]

def Episode.opensBy (n : Nat) (e : Episode) : List (Except StoreError Unit) :=
  match e.event.step with
  | .perform k _ => if k = n then openings e.asked else []
  | _ => []

def opensBy (n : Nat) (h : List Episode) : List (Except StoreError Unit) := h.flatMap (·.opensBy n)

theorem opensBy_append_singleton (n : Nat) (h : List Episode) (e : Episode) :
    opensBy n (h ++ [e]) = opensBy n h ++ e.opensBy n := by simp [opensBy]

variable {s₀ s' : Session} {xs : List Step} {x : Step} {h : List Episode} {e : Episode} {n : Nat}
  {a₀ : Authority}

theorem advances_of_episode (he : s.episode x = some (e, s')) (ha : s.authorities[n]? = some a) :
    ∃ a', s'.authorities[n]? = some a' ∧ a.Advances a' (e.opensBy n) := by
  obtain ⟨hs, hasked⟩ := episode_eq_some he
  obtain ⟨⟨y, r⟩, t⟩ := e
  cases x with
  | perform k o =>
    obtain ⟨-, r, hp, hev⟩ := step_perform_eq_some hs
    cases hev
    cases hasked
    obtain ⟨b, b', hb, hc, -, hset⟩ := perform_course hp
    rw [hset]
    by_cases hk : k = n
    · subst hk
      cases ha.symm.trans hb
      obtain ⟨hlt, -⟩ := List.getElem?_eq_some_iff.1 ha
      refine ⟨b', by simp [hlt], ?_⟩
      simp only [Episode.opensBy, if_pos]
      exact hc.advances
    · refine ⟨a, by rw [List.getElem?_set_ne hk, ha], ?_⟩
      simp only [Episode.opensBy, if_neg hk]
      exact Authority.advances_refl a
  | _ =>
    obtain ⟨hy, ps, rfl⟩ := step_outside hs nofun
    cases hy
    exact ⟨a, ha, Authority.advances_refl a⟩

theorem advances_of_run (hrun : s₀.episodes xs = some (h, s)) (hn : s₀.authorities[n]? = some a₀) :
    ∃ a, s.authorities[n]? = some a ∧ a₀.Advances a (opensBy n h) := by
  refine runSteps_keeps
    (P := fun h s => ∃ a, s.authorities[n]? = some a ∧ a₀.Advances a (opensBy n h))
    (fun x _ h s e s' ⟨a, ha, hadv⟩ he => ?_) (h := []) ⟨a₀, hn, Authority.advances_refl a₀⟩ hrun
  obtain ⟨a', ha', hadv'⟩ := advances_of_episode he ha
  rw [opensBy_append_singleton]
  exact ⟨a', ha', hadv.trans hadv'⟩

theorem opens_of_run (hrun : s₀.episodes xs = some (h, s)) (hn : s₀.authorities[n]? = some a₀)
    (hfresh : a₀.opened = false) :
    successes (opensBy n h) ≤ 1 ∧ ∃ a, s.authorities[n]? = some a ∧ a.hasSource = a₀.hasSource ∧
      a.config = a₀.config ∧ ∀ o, ∃ r s', s.perform n o = some (r, s') ∧
        s.OpensAsNeeded a o r (s.askedFor n o) (opensBy n h) ∧
        s'.surroundings.opens = s.surroundings.opens + (openings (s.askedFor n o)).length := by
  obtain ⟨a, ha, hadv⟩ := advances_of_run hrun hn
  have hopened := hadv.opened
  rw [hfresh, Bool.toNat_false, Nat.zero_add] at hopened
  have hbefore : .ok () ∈ opensBy n h ↔ a.opened = true := by
    rw [← successes_pos_iff, ← hopened]
    cases a.opened <;> simp
  have hsound : a.Sound := hadv.sound (by simp [Authority.Sound, hfresh])
  refine ⟨hopened ▸ Bool.toNat_le a.opened, a, ha, hadv.hasSource, hadv.config, fun o => ?_⟩
  obtain ⟨r, s', hp⟩ := exists_perform ha o
  obtain ⟨b, a', hb, hc, hu, -⟩ := perform_course hp
  cases ha.symm.trans hb
  have hcount := (Surroundings.counts_of_answers hu).1
  exact ⟨r, s', hp, opensAsNeeded_of_course hc hu hsound hbefore, hcount⟩

end Session

end AccessControl
