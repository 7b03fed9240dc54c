import AccessControl.Proofs.Session.History
import AccessControl.Proofs.Session.Undisturbed
import AccessControl.Proofs.Text.ByteOrder

/-!
# The lifecycle of a permission

What a history says about the permissions that exist and about who holds them decides what every
operation answers in a session without faults, and how large the store is.
-/

namespace AccessControl.Session

namespace Event

def added? : Event → Option Permission
  | ⟨.perform _ (.add p), .ok _⟩ => some p
  | _ => none

def deleted? : Event → Option Permission
  | ⟨.perform _ (.delete p), .ok _⟩ => some p
  | _ => none

def Revokes (p : Permission) (id : String) : Event → Prop
  | ⟨.perform _ (.revoke q r), _⟩ => q = p ∧ r.id = id
  | ⟨.perform _ (.revokeAll q), _⟩ => q = p
  | _ => False

end Event

def Live (p : Permission) (h : List Event) : Prop :=
  Since (·.added? = some p) (·.deleted? = some p) h

/-- A role id that a permission was granted to since it was last added, and not revoked from since
then. -/
def Held (p : Permission) (id : String) (h : List Event) : Prop :=
  AfterLast (·.added? = some p) (Since (Event.Grants p id) (Event.Revokes p id)) h

def additions (h : List Event) : Nat := (h.filterMap Event.added?).length

def deletions (h : List Event) : Nat := (h.filterMap Event.deleted?).length

section

variable {e : Event} {p : Permission} {id : String}

theorem withdraws_iff : e.Withdraws p id ↔ e.Revokes p id ∨ e.deleted? = some p := by
  obtain ⟨x, r⟩ := e
  cases x with
  | perform n o =>
    cases o with
    | delete q => cases r <;> simp [Event.Withdraws, Event.Revokes, Event.deleted?]
    | _ => simp [Event.Withdraws, Event.Revokes, Event.deleted?]
  | _ => simp [Event.Withdraws, Event.Revokes, Event.deleted?]

theorem not_grants_of_added? {q : Permission} (he : e.added? = some q) : ¬ e.Grants p id := by
  obtain ⟨x, r⟩ := e
  cases x with
  | perform n o => cases o <;> simp_all [Event.Grants, Event.added?]
  | _ => simp [Event.Grants]

theorem deleted?_of_grants (he : e.Grants p id) : e.deleted? = none := by
  obtain ⟨x, r⟩ := e
  cases x with
  | perform n o => cases o <;> simp_all [Event.Grants, Event.deleted?]
  | _ => rfl

end

/-- An event turns one store into another: it changes what it adds, deletes, grants and withdraws,
and nothing else. -/
structure Turns (e : Event) (st st' : Store) : Prop where
  fresh : ∀ p, e.added? = some p → ¬ st.Contains p
  present : ∀ p id, e.Grants p id → st.Contains p
  contains : ∀ p, st'.Contains p ↔ e.added? = some p ∨ (st.Contains p ∧ e.deleted? ≠ some p)
  holds : ∀ p id, st'.Holds p id ↔ e.Grants p id ∨ (st.Holds p id ∧ ¬ e.Withdraws p id)
  wellFormed : st'.WellFormed
  size : st'.size + e.deleted?.toList.length = st.size + e.added?.toList.length

structure Recounts (h : List Event) (st : Store) : Prop where
  wellFormed : st.WellFormed
  contains : ∀ p, st.Contains p ↔ Live p h
  holds : ∀ p id, st.Holds p id ↔ Live p h ∧ Held p id h
  size : st.size + deletions h = additions h

variable {st st' : Store} {e : Event} {h : List Event}

theorem recounts_nil : Recounts [] .empty where
  wellFormed := Store.wellFormed_empty
  contains p := iff_of_false (by simp [Store.Contains, Store.roles?_empty]) not_since_nil
  holds p id := iff_of_false (Store.not_holds_empty p id) fun hl => not_since_nil hl.1
  size := rfl

theorem live_append_singleton {p : Permission} :
    Live p (h ++ [e]) ↔ e.added? = some p ∨ (Live p h ∧ e.deleted? ≠ some p) :=
  since_append_singleton

theorem Recounts.turn (hr : Recounts h st) (ht : Turns e st st') : Recounts (h ++ [e]) st' where
  wellFormed := ht.wellFormed
  contains p := by rw [live_append_singleton, ht.contains, hr.contains]
  holds p id := by
    rw [live_append_singleton, ht.holds, hr.holds, withdraws_iff]
    by_cases ha : e.added? = some p
    -- a permission that is added was not live, and starts without holders
    · have hl : ¬ Live p h := fun hl => ht.fresh p ha ((hr.contains p).2 hl)
      have hh : Held p id (h ++ [e]) ↔ Since (Event.Grants p id) (Event.Revokes p id) [] :=
        afterLast_append_of_made ha
      simp [hl, hh, not_since_nil, not_grants_of_added? ha]
    · by_cases hl : Live p h
      -- a live one was added before, so that its last addition stays the same
      · have hh : Held p id (h ++ [e]) ↔ e.Grants p id ∨ (Held p id h ∧ ¬ e.Revokes p id) :=
          afterLast_since_append ha (exists_of_since hl)
        have hg : e.Grants p id → e.deleted? ≠ some p := fun hg => by simp [deleted?_of_grants hg]
        rw [hh]
        tauto
      · have hg : ¬ e.Grants p id := fun hg => hl ((hr.contains p).1 (ht.present p id hg))
        simp [ha, hl, hg]
  size := by
    have hsize := ht.size
    have hcount := hr.size
    simp only [additions, deletions, List.filterMap_append, List.length_append] at hcount ⊢
    have hsingle {α β : Type} (f : α → Option β) (a : α) : [a].filterMap f = (f a).toList := by
      cases ha : f a <;> simp [ha]
    rw [hsingle, hsingle]
    omega

theorem turns_of_permissions_eq (hw : st'.WellFormed) (hp : st'.permissions = st.permissions)
    (ha : e.added? = none) (hd : e.deleted? = none) (hg : ∀ p id, e.Grants p id → st.Contains p)
    (hholds : ∀ p id, st'.Holds p id ↔ e.Grants p id ∨ (st.Holds p id ∧ ¬ e.Withdraws p id)) :
    Turns e st st' where
  fresh p hp := by simp [ha] at hp
  present := hg
  contains p := by
    rw [← Store.mem_permissions, hp, Store.mem_permissions]
    simp [ha, hd]
  holds := hholds
  wellFormed := hw
  size := by simp [Store.size_eq, hp, ha, hd]

theorem turns_idle (hw : st.WellFormed) (ha : e.added? = none) (hd : e.deleted? = none)
    (hg : ∀ p id, ¬ e.Grants p id) (hn : ∀ p id, ¬ e.Withdraws p id) : Turns e st st :=
  turns_of_permissions_eq hw rfl ha hd (fun p id hp => absurd hp (hg p id))
    fun p id => by simp [hg p id, hn p id]

variable {lookup : String → Except AuthorityError (List Group)}

theorem turns_add (hw : st.WellFormed) (n : Nat) (q : Permission) :
    Turns ⟨.perform n (.add q), ((Operation.add q).onStore lookup st).1⟩ st
      ((Operation.add q).onStore lookup st).2 := by
  by_cases hq : st.Contains q
  · rw [Operation.add_of_contains hq]
    exact turns_idle hw rfl rfl (fun _ _ => not_false) (fun _ _ => not_false)
  · have hholds (p id) : (st.add q).Holds p id ↔ st.Holds p id := by
      have hi : (Store.apply (.insert q) st).2 = st.add q := by
        simp [Store.apply, Store.not_contains_iff.1 hq]
      rw [← hi, Store.holds_insert]
    rw [Operation.add_of_not_contains hq]
    constructor
    · rintro p ⟨⟩
      exact hq
    · exact fun _ _ hg => hg.elim
    · simp [Store.contains_add, Event.added?, Event.deleted?]
    · simp [hholds, Event.Grants, Event.Withdraws]
    · exact hw.add hq
    · rfl

theorem turns_delete (hw : st.WellFormed) (n : Nat) (q : Permission) :
    Turns ⟨.perform n (.delete q), ((Operation.delete q).onStore lookup st).1⟩ st
      ((Operation.delete q).onStore lookup st).2 := by
  by_cases hq : st.Contains q
  · have hholds (p id) : ((Operation.delete q).onStore lookup st).2.Holds p id ↔ _ :=
      Operation.holds_onStore n (.delete q)
    rw [Operation.delete_of_contains hq] at hholds ⊢
    constructor
    · exact fun _ hp => by cases hp
    · exact fun _ _ hg => hg.elim
    · simp [Store.contains_remove, Event.added?, Event.deleted?, and_comm]
    · exact hholds
    · exact hw.remove
    · exact hw.size_remove hq
  · rw [Operation.delete_of_not_contains hq]
    exact turns_idle hw rfl rfl (fun _ _ => not_false) (fun _ _ => not_false)

theorem turns_grant (hw : st.WellFormed) (n : Nat) (q : Permission) (r : Role) :
    Turns ⟨.perform n (.grant q r), ((Operation.grant q r).onStore lookup st).1⟩ st
      ((Operation.grant q r).onStore lookup st).2 := by
  have hk : (Store.apply (.grant q r) st).2.permissions = st.permissions :=
    Store.permissions_apply nofun nofun
  refine turns_of_permissions_eq (hw.apply (.grant q r)) hk rfl rfl ?_
    fun p id => Operation.holds_onStore n _
  intro p id hg
  by_cases hq : st.Contains q
  · rw [Operation.grant_of_contains hq] at hg
    exact hg.1 ▸ hq
  · rw [Operation.grant_of_not_contains hq] at hg
    exact hg.elim

theorem turns_onStore (hw : st.WellFormed) (n : Nat) (o : Operation) :
    Turns ⟨.perform n o, (o.onStore lookup st).1⟩ st (o.onStore lookup st).2 := by
  cases o with
  | add q => exact turns_add hw n q
  | delete q => exact turns_delete hw n q
  | grant q r => exact turns_grant hw n q r
  | revokeAll q =>
    have hk : (Store.apply (.revokeAll q) st).2.permissions = st.permissions :=
      Store.permissions_apply nofun nofun
    exact turns_of_permissions_eq (hw.apply (.revokeAll q)) hk rfl rfl (fun _ _ hg => hg.elim)
      fun p id => Operation.holds_onStore n _
  | revoke q r =>
    have hk : (Store.apply (.revoke q r) st).2.permissions = st.permissions :=
      Store.permissions_apply nofun nofun
    exact turns_of_permissions_eq (hw.apply (.revoke q r)) hk rfl rfl (fun _ _ hg => hg.elim)
      fun p id => Operation.holds_onStore n _
  | grantedRoles q =>
    rw [Operation.grantedRoles_snd]
    exact turns_idle hw rfl rfl (fun _ _ => not_false) fun _ _ => not_false
  | check user q =>
    rw [Operation.check_snd]
    exact turns_idle hw rfl rfl (fun _ _ => not_false) fun _ _ => not_false
  | bind i => exact turns_idle hw rfl rfl (fun _ _ => not_false) fun _ _ => not_false
  | unbind => exact turns_idle hw rfl rfl (fun _ _ => not_false) fun _ _ => not_false

structure Follows (count : Nat) (h : List Event) (s : Session) (st : Store) : Prop where
  undisturbed : s.Undisturbed st
  recounts : Recounts h st
  length : s.authorities.length = count

variable {s s' : Session} {count : Nat}

theorem Undisturbed.withProviders (hs : s.Undisturbed st) (ps : List Provider) :
    (s.withProviders ps).Undisturbed st :=
  ⟨hs.surroundings.withProviders ps, hs.configured⟩

theorem Follows.step {x : Step} (hf : Follows count h s st) (hs : s.step x = some (e, s')) :
    ∃ st', Follows count (h ++ [e]) s' st' := by
  cases x with
  | perform n o =>
    obtain ⟨-, r, hp, rfl⟩ := step_perform_eq_some hs
    obtain ⟨lookup, -, rfl, hu, hlen⟩ := hf.undisturbed.perform hp
    refine ⟨_, hu, hf.recounts.turn ?_, hlen.trans hf.length⟩
    exact turns_onStore hf.recounts.wellFormed n o
  | _ =>
    obtain ⟨he, ps, rfl⟩ := step_outside hs nofun
    obtain ⟨x, r⟩ := e
    cases he
    refine ⟨st, hf.undisturbed.withProviders ps, hf.recounts.turn ?_, hf.length⟩
    exact turns_idle hf.recounts.wellFormed rfl rfl (fun _ _ => not_false) fun _ _ => not_false

theorem follows_run {s₀ : Session} {xs : List Step} (hs : s₀.Undisturbed .empty)
    (hrun : s₀.run xs = some (h, s)) : ∃ st, Follows s₀.authorities.length h s st :=
  runSteps_keeps (P := fun h s => ∃ st, Follows s₀.authorities.length h s st)
    (fun _ _ _ _ _ _ ⟨_, hf⟩ hs => hf.step hs) (h := []) ⟨.empty, hs, recounts_nil, rfl⟩ hrun

def answer? (n : Nat) (o : Operation) (s : Session) : Option o.Result :=
  (s.perform n o).map (·.1)

/-- What a history says that one of the authorities answers next, and how large the store is. -/
structure Lifecycle (h : List Event) (s : Session) (n : Nat) : Prop where
  add : ∀ p, (s.answer? n (.add p) = some (.ok ()) ↔ ¬ Live p h) ∧
    (s.answer? n (.add p) = some (.error (.store (.alreadyExists p))) ↔ Live p h)
  grant : ∀ p r, (s.answer? n (.grant p r) = some (.ok ()) ↔ Live p h) ∧
    (s.answer? n (.grant p r) = some (.error (.store (.notFound p))) ↔ ¬ Live p h)
  delete : ∀ p, (s.answer? n (.delete p) = some (.ok ()) ↔ Live p h) ∧
    (s.answer? n (.delete p) = some (.error (.store (.notFound p))) ↔ ¬ Live p h)
  neverStillGranted : ∀ (o : Operation) p k,
    s.answer? n o ≠ some (.error (.store (.stillGranted p k)))
  revokeAll : ∀ p, s.answer? n (.revokeAll p) = some (.ok ())
  revoke : ∀ p r, s.answer? n (.revoke p r) = some (.ok ())
  unlisted : ∀ p,
    s.answer? n (.grantedRoles p) = some (.error (.store (.notFound p))) ↔ ¬ Live p h
  listed : ∀ p, Live p h → ∃ ids, s.answer? n (.grantedRoles p) = some (.ok ids) ∧
    ids.Pairwise (fun a b => Text.utf8 a.toList < Text.utf8 b.toList) ∧
    ∀ id, id ∈ ids ↔ Held p id h
  size : ∃ (st : Store) (ps : List Permission), s.surroundings.source = .memory st ∧
    ps.Nodup ∧ (∀ p, p ∈ ps ↔ Live p h) ∧ st.size = ps.length ∧
    st.size + deletions h = additions h

theorem Undisturbed.answer? (hs : s.Undisturbed st) {n : Nat} (hn : n < s.authorities.length)
    (o : Operation) :
    ∃ lookup, Storeless lookup ∧ s.answer? n o = some (o.onStore lookup st).1 := by
  obtain ⟨r, s', hp⟩ := exists_perform (List.getElem?_eq_getElem hn) o
  obtain ⟨lookup, hl, rfl, -⟩ := hs.perform hp
  exact ⟨lookup, hl, by rw [Session.answer?, hp, Option.map_some]⟩

theorem Recounts.listing {p : Permission} (hr : Recounts h st) (hl : Live p h) :
    ∃ ids, (∀ lookup, (Operation.grantedRoles p).onStore lookup st = (.ok ids, st)) ∧
      ids.Pairwise (fun a b => Text.utf8 a.toList < Text.utf8 b.toList) ∧
      ∀ id, id ∈ ids ↔ Held p id h := by
  obtain ⟨ids, hids⟩ := (hr.contains p).2 hl
  refine ⟨ids, fun lookup => Operation.grantedRoles_of_roles? hids, ?_, fun id => ?_⟩
  · have hsorted : ids.Pairwise (· < ·) := hr.wellFormed.sorted_of_roles? hids
    exact hsorted.imp Text.utf8_lt_utf8_of_lt
  · rw [← Store.holds_iff_mem hids, hr.holds, and_iff_right hl]

/-- Every operation of every authority answers by what the history says is live and held. -/
theorem lifecycle_of_run {s₀ : Session} {xs : List Step} {n : Nat} (hs : s₀.Undisturbed .empty)
    (hrun : s₀.run xs = some (h, s)) (hn : n < s₀.authorities.length) : Lifecycle h s n := by
  obtain ⟨st, hu, hr, hlen⟩ := follows_run hs hrun
  have ha (o : Operation) := hu.answer? (hlen ▸ hn) o
  constructor
  case add =>
    intro p
    obtain ⟨lookup, -, ha⟩ := ha (.add p)
    rw [ha, Option.some_inj, Option.some_inj, ← hr.contains]
    exact Operation.add_fst_iff
  case grant =>
    intro p r
    obtain ⟨lookup, -, ha⟩ := ha (.grant p r)
    rw [ha, Option.some_inj, Option.some_inj, ← hr.contains]
    exact Operation.grant_fst_iff
  case delete =>
    intro p
    obtain ⟨lookup, -, ha⟩ := ha (.delete p)
    rw [ha, Option.some_inj, Option.some_inj, ← hr.contains]
    exact Operation.delete_fst_iff
  case neverStillGranted =>
    intro o p k
    obtain ⟨lookup, hl, ha⟩ := ha o
    rw [ha]
    exact fun he => Operation.onStore_ne_stillGranted hl p k (Option.some_inj.1 he)
  case revokeAll =>
    intro p
    obtain ⟨lookup, -, ha⟩ := ha (.revokeAll p)
    exact ha
  case revoke =>
    intro p r
    obtain ⟨lookup, -, ha⟩ := ha (.revoke p r)
    rw [ha, Operation.revoke_fst]
  case unlisted =>
    intro p
    obtain ⟨lookup, -, ha⟩ := ha (.grantedRoles p)
    rw [ha, Option.some_inj, ← hr.contains]
    exact Operation.grantedRoles_fst_eq_error_iff
  case listed =>
    intro p hp
    obtain ⟨lookup, -, ha⟩ := ha (.grantedRoles p)
    obtain ⟨ids, hids, hsorted, hmem⟩ := hr.listing hp
    exact ⟨ids, by rw [ha, hids lookup], hsorted, hmem⟩
  case size =>
    refine ⟨st, st.permissions, hu.surroundings.source, hr.wellFormed.distinct, fun p => ?_,
      Store.size_eq, hr.size⟩
    rw [Store.mem_permissions, hr.contains]

theorem lifecycle_of_run_remade :
    let p : Permission := ⟨"dashboard-1", "view"⟩
    let xs : List Step := [.perform 0 (.add p), .perform 1 (.grant p ⟨"ops", "Operators"⟩),
      .perform 0 (.delete p), .perform 1 (.add p), .perform 0 (.grant p ⟨"qa", "Testers"⟩),
      .perform 1 (.grant p ⟨"dev", "Developers"⟩)]
    ∃ h s, (fresh .standard [none, none] []).run xs = some (h, s) ∧ Lifecycle h s 1 ∧
      s.answer? 1 (.grantedRoles p) = some (.ok ["dev", "qa"]) ∧ additions h = 2 ∧
      deletions h = 1 := by
  intro p xs
  have hs : (fresh .standard [none, none] []).Undisturbed .empty :=
    ⟨⟨rfl, fun _ hf => absurd hf List.not_mem_nil, rfl⟩, (fresh_shows ..).configured⟩
  have hrun : (fresh .standard [none, none] []).run xs = some (_, _) := rfl
  exact ⟨_, _, hrun, lifecycle_of_run hs hrun (by decide), rfl, rfl, rfl⟩

end AccessControl.Session
