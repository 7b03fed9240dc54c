import AccessControl.Http.Script
import AccessControl.Identity.Service
import AccessControl.Proofs.Transcript

/-!
# Lookups and final replies

A lookup follows redirects until a reply sends it nowhere else. It finds groups exactly if that
final reply is a success with a body that decodes, and it fails in five ways, each with an error of
its own. Whoever replies, a script can take that part.
-/

namespace AccessControl

open Dialogue (Exchange Transcript)

namespace Http

/-- The reply of an exchange that does not send the reader on. -/
def final? (names : Web.Idna) (x : Exchange fun _ : Request => Option Reply) : Option Reply :=
  x.2.bind fun r => if (r.target? names x.1.address).isNone then some r else none

variable {names : Web.Idna} {t : List (Exchange fun _ : Request => Option Reply)}

theorem final?_of_send {budget : Nat} {q : Request} {x : Except TransportError Reply}
    (h : (send names budget q).Transcript t x) :
    t ≠ [] ∧ ∀ r, x = .ok r ↔ t.getLast?.bind (final? names) = some r := by
  induction budget generalizing q t with
  | zero =>
    unfold send at h
    cases h with
    | @ask _ _ y _ _ h =>
      cases y with
      | none =>
        cases h
        simp [final?]
      | some r =>
        dsimp only at h
        split at h
        · rename_i hr
          cases h
          simp [final?, hr]
        · rename_i a hr
          cases h
          simp [final?, hr]
  | succ budget ih =>
    unfold send at h
    cases h with
    | @ask _ _ y t₁ _ h =>
      cases y with
      | none =>
        cases h
        simp [final?]
      | some r =>
        dsimp only at h
        split at h
        · rename_i hr
          cases h
          simp [final?, hr]
        · rename_i a hr
          split at h
          · obtain ⟨ht, hx⟩ := ih h
            refine ⟨List.cons_ne_nil _ _, fun r => ?_⟩
            rw [List.getLast?_cons_of_ne_nil ht]
            exact hx r
          · cases h
            simp [final?, hr]

/-- The replies of any peer make a script that leads a conversation the same way. -/
theorem Script.run_replies {α σ : Type} (peer : Request → σ → Option Reply × σ)
    (d : Conversation α) (s : σ) (log : List Request) :
    let script : Script := ⟨true, (d.exchanges peer s).map (·.2), log⟩
    (d.run Script.answer script).1 = (d.run peer s).1 ∧
      d.exchanges Script.answer script = d.exchanges peer s ∧
      (d.run Script.answer script).2.log = log ++ (d.exchanges peer s).map (·.1) := by
  induction d generalizing s log with
  | done a => exact ⟨rfl, rfl, (List.append_nil log).symm⟩
  | note n d ih => exact ih s log
  | ask q next ih =>
    obtain ⟨hend, hsaid, hlog⟩ := ih (peer q s).1 (peer q s).2 (log ++ [q])
    refine ⟨hend, congrArg (List.cons _) hsaid, hlog.trans ?_⟩
    rw [List.append_assoc]
    rfl

end Http

namespace Endpoint

open Http

variable {σ : Type} {names : Web.Idna} {e : Endpoint} {user : String}
  {peer : Request → σ → Option Reply × σ} {s : σ}

def finalReply? (e : Endpoint) (user : String) (peer : Request → σ → Option Reply × σ) (s : σ) :
    Option Reply :=
  ((e.lookupGroups user).exchanges peer s).getLast?.bind (final? e.names)

inductive Fails (e : Endpoint) (user : String) (peer : Request → σ → Option Reply × σ) (s : σ) :
    IdentityError → Prop
  | refused (h : isRefused user = true) : Fails e user peer s (.userNotFound user)
  | transport {a : Web.Address} {te : TransportError} (ha : e.groupsAddress? user = some a)
      (h : ((get e.names a e.token).run peer s).1 = .error te) :
    Fails e user peer s (.unavailable te.message)
  | unknown {r : Reply} (hr : e.finalReply? user peer s = some r) (h : r.status = 404) :
    Fails e user peer s (.userNotFound user)
  | status {r : Reply} (hr : e.finalReply? user peer s = some r) (h : r.status ≠ 404)
      (hs : isSuccess r.status = false) :
    Fails e user peer s
      (.unavailable ("unexpected status " ++ statusText r.status ++ " resolving groups"))
  | undecodable {r : Reply} (hr : e.finalReply? user peer s = some r)
      (hs : isSuccess r.status = true) (hb : Group.listOfBody? r.body = none) :
    Fails e user peer s (.invalidResponse "error decoding response body")

theorem groupsAddress?_eq_none_iff : e.groupsAddress? user = none ↔ isRefused user = true := by
  simp [groupsAddress?]

theorem get_eq_ok_iff {a : Web.Address} {token : Option String} {r : Reply} :
    ((get names a token).run peer s).1 = .ok r ↔
      ((get names a token).exchanges peer s).getLast?.bind (final? names) = some r := by
  unfold Http.get
  split
  · simp [Dialogue.run, Dialogue.exchanges]
  · exact (final?_of_send (Dialogue.transcript_run ..)).2 r

theorem exchanges_remarkOn (user : String) (r : Reply) (peer : Request → σ → Option Reply × σ)
    (s : σ) :
    (remarkOn user r).exchanges peer s = [] := by
  unfold remarkOn
  repeat' split
  all_goals rfl

theorem finalReply?_eq {a : Web.Address} (ha : e.groupsAddress? user = some a) :
    e.finalReply? user peer s =
      ((get e.names a e.token).exchanges peer s).getLast?.bind (final? e.names) := by
  simp only [finalReply?, lookupGroups, ha, Dialogue.exchanges, Dialogue.exchanges_bind]
  split
  · simp [Dialogue.exchanges]
  · simp [Dialogue.exchanges, Dialogue.exchanges_bind, exchanges_remarkOn]

theorem lookup_ends (e : Endpoint) (user : String) (peer : Request → σ → Option Reply × σ) (s : σ) :
    (isRefused user = true ∧ e.finalReply? user peer s = none ∧
      ((e.lookupGroups user).run peer s).1 = .error (.userNotFound user)) ∨
    (∃ a te, e.groupsAddress? user = some a ∧
      ((Http.get e.names a e.token).run peer s).1 = .error te ∧ e.finalReply? user peer s = none ∧
      ((e.lookupGroups user).run peer s).1 = .error (.unavailable te.message)) ∨
    ∃ r, e.finalReply? user peer s = some r ∧
      ((e.lookupGroups user).run peer s).1 = classify user r := by
  cases ha : e.groupsAddress? user with
  | none =>
    refine .inl ⟨groupsAddress?_eq_none_iff.1 ha, ?_, ?_⟩
    · simp [finalReply?, lookupGroups, ha, Dialogue.exchanges]
    · simp [lookupGroups, ha, Dialogue.run]
  | some a =>
    have hf : e.finalReply? user peer s = _ := finalReply?_eq ha
    cases hg : ((Http.get e.names a e.token).run peer s).1 with
    | error te =>
      refine .inr (.inl ⟨a, te, rfl, hg, ?_, ?_⟩)
      · rw [hf, Option.eq_none_iff_forall_ne_some]
        intro r hr
        rw [← get_eq_ok_iff, hg] at hr
        cases hr
      · simp [lookupGroups, ha, Dialogue.run, Dialogue.run_bind, hg]
    | ok r =>
      refine .inr (.inr ⟨r, hf.trans (get_eq_ok_iff.1 hg), ?_⟩)
      simp [lookupGroups, ha, Dialogue.run, Dialogue.run_bind, hg]

theorem classify_eq_ok_iff {r : Reply} {gs : List Group} :
    classify user r = .ok gs ↔ isSuccess r.status = true ∧ Group.listOfBody? r.body = some gs := by
  unfold classify
  split
  · rename_i h
    simp [h, isSuccess]
  · split
    · rename_i hs
      split <;> simp_all
    · rename_i hs
      simp [hs]

theorem lookup_eq_ok_iff {gs : List Group} :
    ((e.lookupGroups user).run peer s).1 = .ok gs ↔
      ∃ r, e.finalReply? user peer s = some r ∧ isSuccess r.status = true ∧
        Group.listOfBody? r.body = some gs := by
  rcases lookup_ends e user peer s with ⟨-, hf, hr⟩ | ⟨a, te, -, -, hf, hr⟩ | ⟨r, hf, hr⟩
  · simp [hr, hf]
  · simp [hr, hf]
  · simp [hr, hf, classify_eq_ok_iff]

theorem fails_of_classify {r : Reply} {err : IdentityError}
    (hf : e.finalReply? user peer s = some r) (h : classify user r = .error err) :
    e.Fails user peer s err := by
  unfold classify at h
  split at h
  · rename_i h404
    cases h
    exact .unknown hf h404
  · rename_i h404
    split at h
    · rename_i hs
      split at h
      · cases h
      · rename_i hb
        cases h
        exact .undecodable hf hs hb
    · rename_i hs
      cases h
      exact .status hf h404 (by simpa using hs)

theorem lookup_eq_error_iff {err : IdentityError} :
    ((e.lookupGroups user).run peer s).1 = .error err ↔ e.Fails user peer s err := by
  have hclassify {r : Reply} (hr : e.finalReply? user peer s = some r) :
      ((e.lookupGroups user).run peer s).1 = classify user r := by
    rcases lookup_ends e user peer s with ⟨-, hf, -⟩ | ⟨a, te, -, -, hf, -⟩ | ⟨r', hf, h⟩
    · cases hf.symm.trans hr
    · cases hf.symm.trans hr
    · cases hf.symm.trans hr
      exact h
  constructor
  · intro h
    rcases lookup_ends e user peer s with ⟨hu, -, hr⟩ | ⟨a, te, ha, hg, -, hr⟩ | ⟨r, hf, hr⟩
    · cases hr.symm.trans h
      exact .refused hu
    · cases hr.symm.trans h
      exact .transport ha hg
    · exact fails_of_classify hf (hr.symm.trans h)
  · intro h
    cases h with
    | refused h => simp [lookupGroups, groupsAddress?_eq_none_iff.2 h, Dialogue.run]
    | transport ha h => simp [lookupGroups, ha, Dialogue.run, Dialogue.run_bind, h]
    | unknown hr h => rw [hclassify hr, classify, if_pos h]
    | status hr h hs => rw [hclassify hr, classify, if_neg h, if_neg (by simp [hs])]
    | @undecodable r hr hs hb =>
      have h404 : r.status ≠ 404 := by
        intro h
        rw [h] at hs
        cases hs
      rw [hclassify hr, classify, if_neg h404, if_pos hs, hb]

end Endpoint

end AccessControl
