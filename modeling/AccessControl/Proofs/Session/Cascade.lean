import AccessControl.Proofs.Session.Interleaving

/-!
# Deletions among other operations

A deletion first revokes its permission from all and then deletes it, and others may have turns in
between. No grant is lost to that: what is granted after the revocation makes the deletion fail, and
what was granted before was revoked before the permission went.
-/

namespace AccessControl.Interleaving

open Dialogue (Exchange)
open Event (Grants Revokes)
open Authority (Course Errand Needing Readying)

variable {s s' : Interleaving} {st : Store} {h h' : List Event} {i : Nat} {ms : List Move}
  {p : Permission} {id : String} {x : Exchange Need.Answer} {t t' : List (Exchange Need.Answer)}

theorem exchangesOf_eq_append_cons (hx : exchangesOf i h = t ++ x :: t') :
    ∃ h₁ h₂, h = h₁ ++ .asked i x :: h₂ ∧ exchangesOf i h₂ = t' := by
  obtain ⟨h₀, h₁, rfl, -, h₁x⟩ := List.filterMap_eq_append_iff.1 hx
  obtain ⟨h₁, e, h₂, rfl, -, he, h₂x⟩ := List.filterMap_eq_cons_iff.1 h₁x
  cases e with
  | asked j y =>
    simp only [Event.exchange?] at he
    split at he
    · rename_i hj
      cases he
      subst hj
      exact ⟨h₀ ++ h₁, h₂, (List.append_assoc ..).symm, h₂x⟩
    · cases he
  | _ => cases he

/-- A run had come to a store after the first of its events. -/
def HadStore (ms : List Move) (s : Interleaving) (h : List Event) (st : Store) : Prop :=
  ∃ before after m, ms = before ++ after ∧ s.run before = some (h, m) ∧
    m.surroundings.source = .memory st

theorem exists_answered (hs : s.surroundings.Undisturbed .empty) (ht : s.tasks = [])
    (hr : s.run ms = some (h ++ .asked i x :: h', s')) :
    ∃ m st own, HadStore ms s h st ∧ Sound h st m ∧
      (Surroundings.answer own x.1 m.surroundings).1 = x.2 := by
  obtain ⟨before, after, m, rfl, hb, ha⟩ := runSteps_append_eq_some hr
  cases after with
  | nil => cases ha
  | cons y ys =>
    obtain ⟨e, m', h₁, he, -, heq⟩ := runSteps_cons_eq_some ha
    obtain ⟨rfl, -⟩ := List.cons.inj heq
    obtain ⟨st, hm⟩ := sound_run hs ht hb
    cases y with
    | start a o => cases he
    | provide ps => cases he
    | turn j =>
      obtain ⟨k, x', rest, -, hasked, -, hx, -⟩ := step_turn_eq_some he
      cases hasked
      exact ⟨m, st, k.own, ⟨before, _, m, rfl, hb, hm.undisturbed.source⟩, hm, congrArg Prod.fst hx⟩

theorem Sound.course {o : Operation} {r : o.Result} (hs : Sound h st s)
    (ho : s.outcome? i = some ⟨o, r⟩) : ∃ a a', Course a o (exchangesOf i h) r a' := by
  simp only [outcome?] at ho
  split at ho
  · cases ho
  · rename_i k hk
    obtain ⟨y, hy, heq⟩ := Option.map_eq_some_iff.1 ho
    cases heq
    obtain ⟨a, ha⟩ := hs.led i k hk
    exact ⟨a, y.2, Authority.course_of_transcript (ha.transcript hy)⟩

theorem Granted.of_revoked {e : Event} {between : List Event}
    (hg : Granted p id (h ++ e :: between)) (he : e.Revokes p id) (hn : ¬ e.Grants p id) :
    Granted p id between := by
  obtain ⟨before, g, after, heq, hmade, hu⟩ := hg
  rcases List.append_eq_append_iff.1 heq with ⟨as, hbefore, hrest⟩ | ⟨bs, hh, hrest⟩
  · cases as with
    | nil =>
      obtain ⟨rfl, -⟩ := List.cons.inj hrest
      exact absurd hmade hn
    | cons y as =>
      obtain ⟨-, rfl⟩ := List.cons.inj hrest
      exact ⟨as, g, after, rfl, hmade, hu⟩
  · cases bs with
    | nil =>
      obtain ⟨rfl, -⟩ := List.cons.inj hrest
      exact absurd hmade hn
    | cons y bs =>
      obtain ⟨-, rfl⟩ := List.cons.inj hrest
      exact absurd he (hu e (List.mem_append_right _ List.mem_cons_self))

/-- How a deletion ends whose last step meets the store `st`, after the events `earlier`, of which
`between` have followed its own revocation. -/
structure EndsDeletion (p : Permission) (earlier between : List Event) (st : Store)
    (r : Except AuthorityError Unit) : Prop where
  ok : r = .ok () ↔ st.roles? p = some []
  undone : r = .ok () → ∀ id before g after, earlier = before ++ g :: after → g.Grants p id →
    ∃ e ∈ after, e.Revokes p id
  stillGranted : ∀ q n, r = .error (.store (.stillGranted q n)) →
    q = p ∧ 1 ≤ n ∧ ∃ ids : RoleSet, st.roles? p = some ids ∧ ids.Nodup ∧ ids.length = n ∧
      ∀ id ∈ ids, Granted p id between
  notFound : r = .error (.store (.notFound p)) ↔ st.roles? p = none
  only : r = .ok () ∨ r = .error (.store (.notFound p)) ∨
    ∃ n, r = .error (.store (.stillGranted p n))

theorem Sound.endsDeletion {between : List Event}
    (hs : Sound (h ++ .asked i ⟨.call (.revokeAll p), .ok ()⟩ :: between) st s) :
    EndsDeletion p (h ++ .asked i ⟨.call (.revokeAll p), .ok ()⟩ :: between) between st
      ((Store.apply (.delete p) st).1.mapError .store) := by
  have hbetween (id : String) (hid : st.Holds p id) : Granted p id between :=
    ((hs.holds p id).1 hid).of_revoked rfl not_false
  cases hp : st.roles? p with
  | none =>
    have hx : (Store.apply (.delete p) st).1 = .error (.notFound p) := by rw [Store.apply, hp]
    rw [hx]
    exact ⟨by simp [hp], by simp, by simp, by simp [hp], .inr (.inl rfl)⟩
  | some ids =>
    cases ids with
    | nil =>
      have hx : (Store.apply (.delete p) st).1 = .ok () := by rw [Store.apply, hp]
      rw [hx]
      refine ⟨by simp [hp], fun _ id before g after heq hg => ?_, by simp, by simp [hp], .inl rfl⟩
      by_contra hnone
      have hstands : Granted p id _ :=
        ⟨before, g, after, heq, hg, fun e he hrev => hnone ⟨e, he, hrev⟩⟩
      have hid := (hs.holds p id).2 hstands
      rw [Store.holds_iff_mem hp] at hid
      cases hid
    | cons id ids =>
      have hx : (Store.apply (.delete p) st).1 = .error (.stillGranted p (id :: ids).length) := by
        rw [Store.apply, hp]
      rw [hx]
      refine ⟨by simp [hp], by simp, ?_, by simp [hp], .inr (.inr ⟨_, rfl⟩)⟩
      intro q n hr
      cases hr
      have hsorted := hs.wellFormed.sorted_of_roles? hp
      refine ⟨rfl, Nat.le_add_left _ _, _, hp, hsorted.nodup, rfl, fun id hid => ?_⟩
      exact hbetween id ((Store.holds_iff_mem hp).2 hid)

/-- Whatever order the turns of operations have, what a store holds are the grants that no
revocation has followed, all of them of permissions that exist. A deletion that returned had no
store, or it revoked its permission and later met a store that decided how it ended. -/
theorem deletions_lose_no_grant (hs : s.surroundings.Undisturbed .empty) (ht : s.tasks = [])
    (hr : s.run ms = some (h, s')) :
    (∃ st, s'.surroundings.source = .memory st ∧
      ∀ p id, (st.Holds p id ↔ Granted p id h) ∧ (Granted p id h → st.Contains p)) ∧
    ∀ i p r, s'.outcome? i = some ⟨.delete p, r⟩ →
      (storeCalls (exchangesOf i h) = [] ∧ ∃ text, r = .error (.configuration text)) ∨
      ∃ before between after x st,
        h = (before ++ .asked i ⟨.call (.revokeAll p), .ok ()⟩ :: between) ++
          .asked i ⟨.call (.delete p), x⟩ :: after ∧
        storeCalls (exchangesOf i h) = [⟨.revokeAll p, .ok ()⟩, ⟨.delete p, x⟩] ∧
        HadStore ms s (before ++ .asked i ⟨.call (.revokeAll p), .ok ()⟩ :: between) st ∧
        EndsDeletion p (before ++ .asked i ⟨.call (.revokeAll p), .ok ()⟩ :: between) between st
          r := by
  obtain ⟨st', hs'⟩ := sound_run hs ht hr
  refine ⟨⟨st', hs'.undisturbed.source, fun p id => ⟨hs'.holds p id, fun hg => ?_⟩⟩, ?_⟩
  · exact ((hs'.holds p id).2 hg).contains
  intro i p r ho
  obtain ⟨a, a', hc⟩ := hs'.course ho
  generalize hx : exchangesOf i h = t at hc
  cases hc with
  | unready hn hready =>
    cases hn
    cases hready with
    | sourceless => exact .inl ⟨rfl, _, rfl⟩
    | unconfigured => exact .inl ⟨rfl, _, rfl⟩
    | refused =>
      -- the open would have failed in surroundings without faults
      obtain ⟨h₁, h₂, rfl, -⟩ := exchangesOf_eq_append_cons (t := []) hx
      obtain ⟨m, st, own, -, hm, hanswer⟩ := exists_answered hs ht hr
      cases (hm.undisturbed.answerOpen _).1.symm.trans hanswer
  | served hn hready he =>
    cases hn
    rw [List.nil_append] at hx
    cases he with
    | stopped =>
      -- the same for the revocation, which never fails by itself
      obtain ⟨h₁, h₂, rfl, -⟩ := exchangesOf_eq_append_cons hx
      obtain ⟨m, st, own, -, hm, hanswer⟩ := exists_answered hs ht hr
      cases (hm.undisturbed.answerCall own _).1.symm.trans hanswer
    | @delete _ x =>
      obtain ⟨before, h₂, rfl, hx₂⟩ := exchangesOf_eq_append_cons hx
      obtain ⟨between, after, rfl, -⟩ := exchangesOf_eq_append_cons (t := []) hx₂
      have hsplit : before ++ .asked i ⟨.call (.revokeAll p), .ok ()⟩ ::
          (between ++ .asked i ⟨.call (.delete p), x⟩ :: after) =
          (before ++ .asked i ⟨.call (.revokeAll p), .ok ()⟩ :: between) ++
            .asked i ⟨.call (.delete p), x⟩ :: after := by simp
      rw [hsplit] at hr
      obtain ⟨m, st, own, hstore, hm, hanswer⟩ := exists_answered hs ht hr
      have hx : (Store.apply (.delete p) st).1 = x :=
        (hm.undisturbed.answerCall own (.delete p)).1.symm.trans hanswer
      refine .inr ⟨before, between, after, x, st, hsplit, ?_, hstore, ?_⟩
      · simp [hready.storeCalls_eq]
      · rw [← hx]
        exact hm.endsDeletion

theorem deletions_lose_no_grant_between :
    let p : Permission := ⟨"dashboard-1", "view"⟩
    let a := Authority.new true (some .standard) none
    let ms : List Move := [.start a (.add p), .turn 0, .turn 0, .start a (.grant p ⟨"dev", "Dev"⟩),
      .turn 1, .turn 1, .start a (.delete p), .turn 2, .start a (.grant p ⟨"ops", "Operators"⟩),
      .turn 3, .turn 2, .turn 3, .turn 2]
    let s : Interleaving := ⟨⟨.memory .empty, [], [], [], 0, []⟩, []⟩
    s.surroundings.Undisturbed .empty ∧ ∃ h s', s.run ms = some (h, s') ∧
      s'.outcome? 2 = some ⟨.delete p, .error (.store (.stillGranted p 1))⟩ ∧
      ∃ before between after, ∃ st : Store, ∃ id,
        h = (before ++ .asked 2 ⟨.call (.revokeAll p), .ok ()⟩ :: between) ++ after ∧
        st.roles? p = some [id] ∧ Granted p id between := by
  intro p a ms s
  have hs : s.surroundings.Undisturbed .empty := ⟨rfl, nofun, rfl⟩
  have hout : (s.run ms).map (fun x => x.2.outcome? 2) =
      some (some ⟨.delete p, .error (.store (.stillGranted p 1))⟩) := by rfl
  obtain ⟨⟨h, s'⟩, hr, ho⟩ := Option.map_eq_some_iff.1 hout
  refine ⟨hs, h, s', hr, ho, ?_⟩
  obtain ⟨-, hdeletions⟩ := deletions_lose_no_grant hs rfl hr
  rcases hdeletions 2 p _ ho with ⟨-, text, he⟩ | ⟨before, between, after, x, st, hh, -, -, hends⟩
  · cases he
  · obtain ⟨-, -, ids, hids, -, hone, hgranted⟩ := hends.stillGranted p 1 rfl
    obtain ⟨id, rfl⟩ := List.length_eq_one_iff.1 hone
    exact ⟨before, between, _, st, id, hh, hids, hgranted id List.mem_cons_self⟩

end AccessControl.Interleaving
