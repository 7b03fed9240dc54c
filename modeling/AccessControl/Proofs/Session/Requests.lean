import AccessControl.Proofs.Session.Removal
import Mathlib.Data.List.TakeDrop

/-!
# Requests to services

A lookup takes one reply for each request that reaches its service, and a reply that is missing is
as good as none. With the replies that it took in front it finds the same, whatever comes after them
and whatever was logged before.
-/

namespace AccessControl

namespace Http.Script

variable {α : Type} {s u : Script} {left : List (Option Reply)} {n : Nat}

def unlogged (s : Script) : Script := { s with log := [] }

theorem answer_congr (q : Request) (h : s.unlogged = u.unlogged) :
    (answer q s).1 = (answer q u).1 ∧ (answer q s).2.unlogged = (answer q u).2.unlogged := by
  obtain ⟨reachable, replies, log⟩ := s
  obtain ⟨reachable', replies', log'⟩ := u
  cases h
  simp only [answer]
  split
  · split <;> exact ⟨rfl, rfl⟩
  · exact ⟨rfl, rfl⟩

theorem run_congr (d : Conversation α) (h : s.unlogged = u.unlogged) :
    (d.run answer s).1 = (d.run answer u).1 ∧
      (d.run answer s).2.unlogged = (d.run answer u).2.unlogged := by
  induction d generalizing s u with
  | done a => exact ⟨rfl, h⟩
  | ask q next ih =>
    obtain ⟨hr, hs⟩ := answer_congr q h
    simp only [Dialogue.run, hr]
    exact ih _ hs
  | note m d ih => exact ih h

theorem log_length_le (d : Conversation α) (s : Script) :
    s.log.length ≤ (d.run answer s).2.log.length := by
  refine Dialogue.run_keeps answer (P := fun u => s.log.length ≤ u.log.length) ?_ d (Nat.le_refl _)
  intro q u hu
  rcases log_answer q u with hl | hl
  · rw [hl]
    exact hu
  · rw [hl, List.length_append]
    omega

theorem run_taken (d : Conversation α) (hn : (d.run answer s).2.log.length = s.log.length + n)
    (hreach : u.reachable = s.reachable) (hu : u.replies = s.replies.takeD n none ++ left) :
    (d.run answer u).1 = (d.run answer s).1 ∧ (d.run answer u).2.replies = left ∧
      (d.run answer s).2.replies = s.replies.drop n := by
  -- on the dialogue: each request that reaches the service uses up one reply in both scripts
  induction d generalizing s u n with
  | done a =>
    have hzero : n = 0 := by simpa [Dialogue.run] using hn
    subst hzero
    exact ⟨rfl, hu, rfl⟩
  | note m d ih => exact ih hn hreach hu
  | ask q next ih =>
    simp only [Dialogue.run] at hn ⊢
    by_cases hs : s.reachable = true
    · have hle := log_length_le (next (answer q s).1) (answer q s).2
      rw [answer_of_reachable hs] at hn hle ⊢
      dsimp only at hn hle ⊢
      rw [List.length_append, List.length_singleton] at hle
      obtain ⟨k, rfl⟩ : ∃ k, n = k + 1 := ⟨n - 1, by omega⟩
      have hanswer : answer q u = (s.replies.head?.getD none,
          ⟨u.reachable, s.replies.tail.takeD k none ++ left, u.log ++ [q]⟩) := by
        rw [answer_of_reachable (hreach.trans hs), hu, List.takeD_succ]
        rfl
      rw [hanswer, ← List.drop_tail]
      refine ih _ ?_ hreach rfl
      rw [hn, List.length_append, List.length_singleton]
      omega
    · have hnone : answer q s = (none, s) := if_neg hs
      have hnone' : answer q u = (none, u) := if_neg (hreach ▸ hs)
      rw [hnone] at hn ⊢
      rw [hnone']
      exact ih none hn hreach hu

end Http.Script

namespace Provider

variable {p q : Provider} {left : List (Option Http.Reply)} {n : Nat}

def unlogged : Provider → Provider
  | .service e s => .service e s.unlogged
  | p => p

theorem lookup_congr (user : String) (h : p.unlogged = q.unlogged) :
    (p.lookup user).1 = (q.lookup user).1 ∧
      (p.lookup user).2.unlogged = (q.lookup user).2.unlogged := by
  cases p with
  | service e s =>
    cases q with
    | service e' u =>
      obtain ⟨rfl, hsu⟩ := Provider.service.inj h
      obtain ⟨hr, hl⟩ := Http.Script.run_congr (e.lookupGroups user) hsu
      exact ⟨hr, congrArg (Provider.service e) hl⟩
    | _ => cases h
  | directory d =>
    cases q with
    | directory d' =>
      cases h
      exact ⟨rfl, rfl⟩
    | _ => cases h
  | failing e =>
    cases q with
    | failing e' =>
      cases h
      exact ⟨rfl, rfl⟩
    | _ => cases h

theorem unlogged_changeDirectory (f : Directory → Directory) (p : Provider) :
    (p.changeDirectory f).unlogged = p.unlogged.changeDirectory f := by
  cases p <;> rfl

def requests : Provider → Nat
  | .service _ s => s.log.length
  | _ => 0

theorem requests_le (user : String) (p : Provider) : p.requests ≤ (p.lookup user).2.requests := by
  cases p with
  | service e s => exact Http.Script.log_length_le (e.lookupGroups user) s
  | _ => exact Nat.le_refl _

theorem Like.lookup_taken {user : String} (h : Like (p.replies.takeD n none ++ left) p q)
    (hn : (p.lookup user).2.requests = p.requests + n) :
    (q.lookup user).1 = (p.lookup user).1 ∧ Like left (p.lookup user).2 (q.lookup user).2 ∧
      (p.lookup user).2.replies = p.replies.drop n := by
  cases h with
  | directory d => exact ⟨rfl, .directory d, List.drop_nil.symm⟩
  | failing e => exact ⟨rfl, .failing e, List.drop_nil.symm⟩
  | @service e s u h =>
    obtain ⟨hreach, hreplies⟩ := h
    obtain ⟨hr, hleft, hdrop⟩ :=
      Http.Script.run_taken (e.lookupGroups user) hn hreach hreplies
    have hs := Http.Script.reachable_run (e.lookupGroups user) s
    have hu := Http.Script.reachable_run (e.lookupGroups user) u
    exact ⟨hr, .service ⟨hu.trans (hreach.trans hs.symm), hleft⟩, hdrop⟩

def asked : Option String → Provider → Provider
  | none, p => p
  | some user, p => (p.lookup user).2

theorem requests_le_asked (user? : Option String) (p : Provider) :
    p.requests ≤ (p.asked user?).requests := by
  cases user? with
  | none => exact Nat.le_refl _
  | some user => exact requests_le user p

theorem like_asked_iff {user? : Option String} : Like left (p.asked user?) q ↔ Like left p q := by
  cases user? with
  | none => rfl
  | some user =>
    refine ⟨fun h => ?_, fun h => h.of_lookup user⟩
    cases p with
    | service e s =>
      have hreach := Http.Script.reachable_run (e.lookupGroups user) s
      cases h with
      | service h => exact .service ⟨h.1.trans hreach, h.2⟩
    | _ => exact h

theorem Like.asked_taken {user? : Option String} (h : Like (p.replies.takeD n none ++ left) p q)
    (hn : (p.asked user?).requests = p.requests + n) :
    (∀ user ∈ user?, (q.lookup user).1 = (p.lookup user).1) ∧
      Like left (p.asked user?) (q.asked user?) ∧ (p.asked user?).replies = p.replies.drop n := by
  cases user? with
  | none =>
    obtain rfl : n = 0 := by simpa [asked] using hn
    exact ⟨nofun, h, rfl⟩
  | some user =>
    obtain ⟨hr, hleft, hdrop⟩ := h.lookup_taken hn
    refine ⟨?_, hleft, hdrop⟩
    intro user' huser
    cases huser
    exact hr

theorem replies_asked {user? : Option String} (hn : (p.asked user?).requests = p.requests + n) :
    (p.asked user?).replies = p.replies.drop n := by
  have h : Like (p.replies.takeD n none ++ []) p (p.withReplies (p.replies.takeD n none ++ [])) :=
    like_withReplies
  exact (h.asked_taken hn).2.2

theorem Like.unlogged_eq (h : Like p.replies p q) : p.unlogged = q.unlogged := by
  cases h with
  | directory d => rfl
  | failing e => rfl
  | @service e s u h =>
    obtain ⟨reachable, replies, log⟩ := s
    obtain ⟨reachable', replies', log'⟩ := u
    obtain ⟨rfl, rfl⟩ := h
    rfl

theorem mapIdx_withReplies {ps : List Provider}
    (hs : ∀ e script, Provider.service e script ∉ ps)
    (left : Nat → Provider → List (Option Http.Reply)) :
    (ps.mapIdx fun i q => q.withReplies (left i q)) = ps := by
  refine List.ext_getElem? fun i => ?_
  rw [List.getElem?_mapIdx]
  cases hq : ps[i]? with
  | none => rfl
  | some q =>
    cases q with
    | service e script => exact absurd (List.mem_of_getElem? hq) (hs e script)
    | _ => rfl

/-- A provider with the replies that it has for two lookups in the other order, where the first of
them left it as `p₁` and the second as `p₂`. -/
def swapped (p p₁ p₂ : Provider) : Provider :=
  let n := p₁.requests - p.requests
  let m := p₂.requests - p₁.requests
  p.withReplies <|
    (p.replies.drop n).takeD m none ++ (p.replies.takeD n none ++ p.replies.drop (n + m))

theorem lookup_swapped (p : Provider) (x y : Option String) :
    let p₁ := p.asked x
    let p₂ := p₁.asked y
    let q := p.swapped p₁ p₂
    (∀ user ∈ y, (q.lookup user).1 = (p₁.lookup user).1) ∧
      (∀ user ∈ x, ((q.asked y).lookup user).1 = (p.lookup user).1) ∧
      ((q.asked y).asked x).unlogged = p₂.unlogged := by
  intro p₁ p₂ q
  obtain ⟨n, hn⟩ := Nat.exists_eq_add_of_le (requests_le_asked x p)
  obtain ⟨m, hm⟩ := Nat.exists_eq_add_of_le (requests_le_asked y p₁)
  have hreplies₁ : p₁.replies = p.replies.drop n := replies_asked hn
  have hreplies₂ : p₂.replies = p.replies.drop (n + m) := by
    rw [← List.drop_drop, ← hreplies₁]
    exact replies_asked hm
  have hq : q = p.withReplies (p₁.replies.takeD m none ++
      (p.replies.takeD n none ++ p.replies.drop (n + m))) := by
    simp only [q, swapped, hreplies₁, p₂, p₁, hn, hm, Nat.add_sub_cancel_left]
  have hfirst : Like (p₁.replies.takeD m none ++
      (p.replies.takeD n none ++ p.replies.drop (n + m))) p₁ q :=
    hq ▸ like_asked_iff.2 like_withReplies
  obtain ⟨hy, hleft, -⟩ := hfirst.asked_taken hm
  have hsecond : Like (p.replies.takeD n none ++ p.replies.drop (n + m)) p (q.asked y) :=
    like_asked_iff.1 (like_asked_iff.1 hleft)
  obtain ⟨hx, hlast, -⟩ := hsecond.asked_taken hn
  have hend : Like p₂.replies p₂ ((q.asked y).asked x) := by
    rw [hreplies₂]
    exact like_asked_iff.2 hlast
  exact ⟨hy, hx, hend.unlogged_eq.symm⟩

end Provider

end AccessControl
