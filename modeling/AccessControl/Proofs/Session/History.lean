import AccessControl.Proofs.Sequence
import AccessControl.Proofs.Session.Outcome

/-!
# Histories

What the history of a run says about grants, about the provider that an authority is bound to and
about the groups of users. A ledger that starts with an empty store always tracks its history.
-/

namespace AccessControl

namespace Session

namespace Event

def Grants (p : Permission) (id : String) : Event → Prop
  | ⟨.perform _ (.grant q r), .ok _⟩ => q = p ∧ r.id = id
  | _ => False

def Withdraws (p : Permission) (id : String) : Event → Prop
  | ⟨.perform _ (.revoke q r), _⟩ => q = p ∧ r.id = id
  | ⟨.perform _ (.revokeAll q), _⟩ => q = p
  | ⟨.perform _ (.delete q), .ok _⟩ => q = p
  | _ => False

def binding? (n : Nat) : Event → Option (Option ProviderId)
  | ⟨.perform k (.bind i), _⟩ => if k = n then some (some i) else none
  | ⟨.perform k .unbind, _⟩ => if k = n then some none else none
  | _ => none

def groups? (i : ProviderId) (user : String) : Event → Option (Option (List Group))
  | ⟨.give d, j⟩ => if j = i then some (d.groups? user) else none
  | ⟨.setGroups j u gs, _⟩ => if j = i ∧ u = user then some (some gs) else none
  | ⟨.removeUser j u, _⟩ => if j = i ∧ u = user then some none else none
  | _ => none

end Event

def Granted (p : Permission) (id : String) (h : List Event) : Prop :=
  Since (Event.Grants p id) (Event.Withdraws p id) h

def boundAfter (first : List (Option ProviderId)) (h : List Event) (n : Nat) : Option ProviderId :=
  latest (Event.binding? n) (first[n]?.getD none) h

def groupsAfter (first : List Directory) (h : List Event) (i : ProviderId) (user : String) :
    Option (List Group) :=
  latest (Event.groups? i user) (first[i]?.bind (·.groups? user)) h

end Session

/-- A ledger whose state is what a history says about it. -/
structure Ledger.Tracks (first : Ledger) (h : List Session.Event) (m : Ledger) : Prop where
  holds : ∀ p id, m.store.Holds p id ↔ Session.Granted p id h
  length : m.bindings.length = first.bindings.length
  bound : ∀ n, m.bindings[n]?.getD none = Session.boundAfter first.bindings h n
  groups : ∀ i user,
    m.directories[i]?.bind (·.groups? user) = Session.groupsAfter first.directories h i user

def Ledger.Closed (m : Ledger) : Prop := ∀ i, some i ∈ m.bindings → i < m.directories.length

namespace Operation

open Session.Event (Grants Withdraws)

variable {lookup : String → Except AuthorityError (List Group)} {st : Store} {p : Permission}
  {id : String}

theorem holds_onStore_grant (n : Nat) (q : Permission) (r : Role) :
    ((grant q r).onStore lookup st).2.Holds p id ↔
      st.Holds p id ∨ Grants p id ⟨.perform n (.grant q r), ((grant q r).onStore lookup st).1⟩ := by
  have hh : ((grant q r).onStore lookup st).2.Holds p id ↔ _ := Store.holds_grant
  rw [hh]
  by_cases hq : st.Contains q
  · simp [grant_of_contains hq, hq, Grants]
  · simp [grant_of_not_contains hq, hq, Grants]

theorem holds_onStore_delete (n : Nat) (q : Permission) :
    ((delete q).onStore lookup st).2.Holds p id ↔
      st.Holds p id ∧
        ¬ Withdraws p id ⟨.perform n (.delete q), ((delete q).onStore lookup st).1⟩ := by
  by_cases hq : st.Contains q
  · have hh : ((delete q).onStore lookup st).2.Holds p id ↔ st.Holds p id ∧ q ≠ p :=
      Store.holds_delete.trans Store.holds_revokeAll
    rw [hh]
    simp [delete_of_contains hq, Withdraws]
  · simp [delete_of_not_contains hq, Withdraws]

theorem holds_onStore (n : Nat) (o : Operation) :
    (o.onStore lookup st).2.Holds p id ↔
      Grants p id ⟨.perform n o, (o.onStore lookup st).1⟩ ∨
        (st.Holds p id ∧ ¬ Withdraws p id ⟨.perform n o, (o.onStore lookup st).1⟩) := by
  cases o with
  | add q => simpa [onStore, Grants, Withdraws] using Store.holds_insert
  | delete q => simpa [Grants] using holds_onStore_delete n q
  | grant q r => simpa [Withdraws, or_comm] using holds_onStore_grant n q r
  | revokeAll q => simpa [onStore, Grants, Withdraws] using Store.holds_revokeAll
  | revoke q r => simpa [onStore, Grants, Withdraws] using Store.holds_revoke
  | grantedRoles q => simp [grantedRoles_snd, Grants, Withdraws]
  | check user q => simp [check_snd, Grants, Withdraws]
  | bind i => simp [onStore, Grants, Withdraws]
  | unbind => simp [onStore, Grants, Withdraws]

end Operation

namespace Ledger

open Session (Step Event boundAfter groupsAfter)

theorem tracks_start {m : Ledger} (hm : m.store = .empty) : m.Tracks [] m where
  holds p id := by
    rw [hm]
    exact iff_of_false (Store.not_holds_empty p id) not_since_nil
  length := rfl
  bound _ := rfl
  groups _ _ := rfl

theorem binding?_perform (k n : Nat) (o : Operation) (r : o.Result) (bound : Option ProviderId) :
    (Event.binding? k ⟨.perform n o, r⟩).getD bound = if n = k then o.rebinds bound else bound := by
  cases o <;> simp only [Event.binding?, Operation.rebinds] <;> split <;> rfl

theorem groups?_modify {ds : List Directory} {i : ProviderId} {f : Directory → Directory}
    {user : String} {gs : Option (List Group)} (hi : i < ds.length)
    (hf : ∀ (d : Directory) v, (f d).groups? v = if user = v then gs else d.groups? v)
    (j : ProviderId) (v : String) :
    (ds.modify i f)[j]?.bind (·.groups? v) =
      if i = j ∧ user = v then gs else ds[j]?.bind (·.groups? v) := by
  rw [List.getElem?_modify]
  by_cases hj : i = j
  · subst hj
    simp [List.getElem?_eq_getElem hi, hf]
  · simp [hj]

theorem Tracks.perform {first m : Ledger} {h : List Event} {n : Nat} {bound : Option ProviderId}
    (ht : first.Tracks h m) (hn : m.bindings[n]? = some bound) (o : Operation) :
    first.Tracks (h ++ [⟨.perform n o, (o.onStore (lookup m.directories bound) m.store).1⟩])
      ⟨(o.onStore (lookup m.directories bound) m.store).2, m.bindings.set n (o.rebinds bound),
        m.directories⟩ := by
  refine ⟨fun p id => ?_, ?_, fun k => ?_, fun i user => ?_⟩
  · rw [Operation.holds_onStore n o, ht.holds p id, Session.Granted, Session.Granted,
      since_append_singleton]
  · rw [List.length_set, ht.length]
  · rw [boundAfter, latest_append_singleton, binding?_perform, ← boundAfter, ← ht.bound k]
    obtain ⟨hlt, hg⟩ := List.getElem?_eq_some_iff.1 hn
    by_cases hk : n = k
    · subst hk
      simp [hlt, hg]
    · simp [hk]
  · rw [groupsAfter, latest_append_singleton, ← groupsAfter, ← ht.groups i user]
    rfl

theorem Tracks.withDirectories {first m : Ledger} {h : List Event} {e : Event}
    {ds : List Directory} (ht : first.Tracks h m)
    (hp : ∀ p id, ¬ e.Grants p id ∧ ¬ e.Withdraws p id) (hb : ∀ n, e.binding? n = none)
    (hg : ∀ i user, ds[i]?.bind (·.groups? user) =
      (e.groups? i user).getD (m.directories[i]?.bind (·.groups? user))) :
    first.Tracks (h ++ [e]) { m with directories := ds } := by
  refine ⟨fun p id => ?_, ht.length, fun k => ?_, fun i user => ?_⟩
  · rw [Session.Granted, since_append_singleton, ht.holds p id, Session.Granted]
    simp [hp p id]
  · rw [boundAfter, latest_append_singleton, hb, ← boundAfter, ← ht.bound k]
    rfl
  · rw [groupsAfter, latest_append_singleton, ← groupsAfter, ← ht.groups i user, hg]

theorem groups?_append_singleton (ds : List Directory) (d : Directory) (i : ProviderId)
    (user : String) :
    (ds ++ [d])[i]?.bind (·.groups? user) =
      if ds.length = i then d.groups? user else ds[i]?.bind (·.groups? user) := by
  rw [List.getElem?_append]
  split
  · rename_i hlt
    rw [if_neg (by omega)]
  · rename_i hge
    rw [List.getElem?_eq_none (l := ds) (by omega)]
    split
    · rename_i hi
      subst hi
      simp
    · rename_i hi
      rw [List.getElem?_eq_none (by simp; omega)]

theorem Tracks.step {first m m' : Ledger} {h : List Event} {x : Step} {e : Event}
    (ht : first.Tracks h m) (hs : m.step x = some (e, m')) : first.Tracks (h ++ [e]) m' := by
  cases x with
  | perform n o =>
    simp only [Ledger.step] at hs
    split at hs
    · split at hs
      · cases hs
      · rename_i bound hn
        cases hs
        exact ht.perform hn o
    · cases hs
  | give d =>
    cases hs
    refine ht.withDirectories (fun _ _ => ⟨not_false, not_false⟩) (fun _ => rfl) fun i user => ?_
    rw [groups?_append_singleton, Event.groups?]
    split <;> rfl
  | setGroups i user gs =>
    simp only [Ledger.step] at hs
    split at hs
    · rename_i hi
      cases hs
      refine ht.withDirectories (fun _ _ => ⟨not_false, not_false⟩) (fun _ => rfl) fun j v => ?_
      rw [groups?_modify hi fun d v => d.groups?_set user v gs, Event.groups?]
      split <;> rfl
    · cases hs
  | removeUser i user =>
    simp only [Ledger.step] at hs
    split at hs
    · rename_i hi
      cases hs
      refine ht.withDirectories (fun _ _ => ⟨not_false, not_false⟩) (fun _ => rfl) fun j v => ?_
      rw [groups?_modify hi fun d v => d.groups?_remove user v, Event.groups?]
      split <;> rfl
    · cases hs

theorem Closed.step {m m' : Ledger} {x : Step} {e : Event} (hm : m.Closed)
    (hs : m.step x = some (e, m')) : m'.Closed := by
  cases x with
  | perform n o =>
    simp only [Ledger.step] at hs
    split at hs
    · rename_i hfits
      split at hs
      · cases hs
      · rename_i bound hn
        cases hs
        intro i hi
        rcases List.mem_or_eq_of_mem_set hi with hi | hi
        · exact hm i hi
        · cases o with
          | bind j =>
            cases hi
            simpa [Operation.fits] using hfits
          | unbind => cases hi
          | _ => exact hm i (hi ▸ List.mem_of_getElem? hn)
    · cases hs
  | give d =>
    cases hs
    intro i hi
    rw [List.length_append]
    exact Nat.lt_add_right _ (hm i hi)
  | setGroups i user gs =>
    simp only [Ledger.step] at hs
    split at hs
    · cases hs
      exact fun j hj => (List.length_modify ..).symm ▸ hm j hj
    · cases hs
  | removeUser i user =>
    simp only [Ledger.step] at hs
    split at hs
    · cases hs
      exact fun j hj => (List.length_modify ..).symm ▸ hm j hj
    · cases hs

theorem tracks_run {m m' : Ledger} {xs : List Step} {h : List Event} (hm : m.store = .empty)
    (hr : m.run xs = some (h, m')) : m.Tracks h m' :=
  runSteps_keeps (P := m.Tracks) (fun _ _ _ _ _ _ ht hs => ht.step hs) (tracks_start hm) hr

theorem closed_run {m m' : Ledger} {xs : List Step} {h : List Event} (hm : m.Closed)
    (hr : m.run xs = some (h, m')) : m'.Closed :=
  runSteps_keeps (P := fun _ m => m.Closed) (fun _ _ _ _ _ _ hm hs => hm.step hs) (h := []) hm hr

end Ledger

end AccessControl
