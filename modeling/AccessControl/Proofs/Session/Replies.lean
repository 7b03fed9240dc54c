import AccessControl.Proofs.Session.Episode
import AccessControl.Proofs.Session.Surroundings
import AccessControl.Proofs.Stock

/-!
# Replies as stocks

The replies of services are the stocks that a session draws from. Whatever else the services have
left, surroundings in which no open fails give the same answers, as long as no open failed before.
-/

namespace AccessControl

open Dialogue (Exchange Answers)

namespace Http.Script

/-- A script is like another one if a request reaches the service in both or in neither. -/
def stocks : Stocks Script Unit (Option Reply) where
  stock s _ := s.replies
  Like left s u := u.reachable = s.reachable ∧ u.replies = left ()

theorem answer_of_reachable {q : Request} {s : Script} (hs : s.reachable = true) :
    answer q s = (s.replies.head?.getD none, ⟨s.reachable, s.replies.tail, s.log ++ [q]⟩) := by
  obtain ⟨reachable, replies, log⟩ := s
  simp only [answer]
  rw [if_pos hs]
  cases replies <;> rfl

theorem draws_answer (q : Request) (s : Script) :
    ∃ drawn, stocks.Draws (fun u u' => answer q u = ((answer q s).1, u')) s (answer q s).2
      drawn := by
  by_cases hs : s.reachable = true
  · rw [answer_of_reachable hs]
    refine ⟨fun _ => s.replies.take 1, fun _ => ?_, fun u left hl hu => ?_⟩
    · cases h : s.replies <;> simp [stocks, h]
    · obtain ⟨hr, hu⟩ := hu
      have hu : u.replies = s.replies.take 1 ++ left () := hu
      rw [answer_of_reachable (hr.trans hs), hu]
      cases h : s.replies with
      | nil =>
        have hleft : left () = [] := by simpa [stocks, h] using hl ()
        rw [hleft]
        exact ⟨_, rfl, hr, hleft.symm⟩
      | cons r replies => exact ⟨_, rfl, hr, rfl⟩
  · have hnone (u : Script) (hu : u.reachable = s.reachable) : answer q u = (none, u) :=
      if_neg (hu ▸ hs)
    rw [hnone s rfl]
    exact ⟨fun _ => [], fun _ => rfl, fun u left _ hu => ⟨u, hnone u hu.1, hu⟩⟩

theorem draws_run {α : Type} (d : Conversation α) (s : Script) :
    ∃ drawn, stocks.Draws (fun u u' => d.run answer u = ((d.run answer s).1, u')) s
      (d.run answer s).2 drawn := by
  obtain ⟨drawn, h⟩ := Stocks.draws_answers (M := stocks) (fun x _ s hx => hx ▸ draws_answer x.1 s)
    (Dialogue.answers_run answer d s)
  exact ⟨drawn, h.imp fun u u' ha => ((Dialogue.transcript_run answer d s).run_eq ha).1⟩

end Http.Script

namespace Provider

def replies : Provider → List (Option Http.Reply)
  | .service _ script => script.replies
  | _ => []

inductive Like (left : List (Option Http.Reply)) : Provider → Provider → Prop
  | directory (d : Directory) : Like left (.directory d) (.directory d)
  | failing (e : IdentityError) : Like left (.failing e) (.failing e)
  | service {e : Endpoint} {s u : Http.Script} (h : Http.Script.stocks.Like (fun _ => left) s u) :
    Like left (.service e s) (.service e u)

def stocks : Stocks Provider Unit (Option Http.Reply) where
  stock p _ := p.replies
  Like left := Like (left ())

theorem draws_lookup (user : String) (p : Provider) :
    ∃ drawn, stocks.Draws (fun u u' => u.lookup user = ((p.lookup user).1, u')) p
      (p.lookup user).2 drawn := by
  cases p with
  | directory d =>
    refine ⟨fun _ => [], fun _ => rfl, fun u left _ hu => ?_⟩
    cases hu
    exact ⟨_, rfl, .directory d⟩
  | failing e =>
    refine ⟨fun _ => [], fun _ => rfl, fun u left _ hu => ?_⟩
    cases hu
    exact ⟨_, rfl, .failing e⟩
  | service e script =>
    obtain ⟨drawn, h⟩ := Http.Script.draws_run (e.lookupGroups user) script
    refine ⟨drawn, h.stock, fun u left hl hu => ?_⟩
    cases hu with
    | @service _ _ u hu =>
      obtain ⟨u', hrun, hu'⟩ := h.alike u left hl hu
      simp only [lookup, hrun]
      exact ⟨_, rfl, .service hu'⟩

end Provider

namespace Surroundings

structure Like (left : ProviderId → List (Option Http.Reply)) (s u : Surroundings) : Prop where
  source : u.source = s.source
  callFaults : u.callFaults = s.callFaults
  calls : u.calls = s.calls
  openFaults : u.openFaults = []
  length : u.providers.length = s.providers.length
  providers : ∀ i, Option.Rel (Provider.Like (left i)) s.providers[i]? u.providers[i]?

def repliesOf (s : Surroundings) (i : ProviderId) : List (Option Http.Reply) :=
  s.providers[i]?.elim [] Provider.replies

def stocks : Stocks Surroundings ProviderId (Option Http.Reply) where
  stock := repliesOf
  Like := Like

variable {s u : Surroundings} {left : ProviderId → List (Option Http.Reply)}

theorem draws_open {c : PermissionConfig} (hs : (s.answerOpen c).1 = .ok ()) :
    stocks.Draws (fun u u' => u.answerOpen c = (.ok (), u')) s (s.answerOpen c).2 fun _ => [] := by
  simp only [answerOpen] at hs ⊢
  split at hs
  · cases hs
  · rename_i hf
    refine ⟨fun _ => rfl, fun u left _ hu => ?_⟩
    have hu : s.Like left u := hu
    simp only [hu.openFaults, hu.source, List.head?_nil, Option.getD_none]
    refine ⟨_, Prod.ext hs rfl, ?_⟩
    exact ⟨rfl, hu.callFaults, hu.calls, rfl, hu.length, hu.providers⟩

theorem draws_call (own : PermissionConfig) (k : StoreCall) (s : Surroundings) :
    stocks.Draws (fun u u' => u.answerCall own k = ((s.answerCall own k).1, u')) s
      (s.answerCall own k).2 fun _ => [] := by
  refine ⟨fun _ => ?_, fun u left _ hu => ?_⟩
  · obtain ⟨source, he⟩ := answerCall_snd own k s
    rw [he]
    rfl
  · have hu : s.Like left u := hu
    have hf : u.fault? k = s.fault? k := fault?_congr hu.callFaults (by rw [hu.calls])
    simp only [answerCall, hf, hu.source, hu.calls]
    split
    all_goals
      refine ⟨_, rfl, ?_⟩
      exact ⟨rfl, hu.callFaults, rfl, hu.openFaults, hu.length, hu.providers⟩

theorem draws_groups (i : ProviderId) (user : String) (s : Surroundings) :
    ∃ drawn, stocks.Draws (fun u u' => u.answerGroups i user = ((s.answerGroups i user).1, u')) s
      (s.answerGroups i user).2 drawn := by
  simp only [answerGroups]
  cases hp : s.providers[i]? with
  | none =>
    refine ⟨fun _ => [], fun _ => rfl, fun u left _ hu => ⟨u, ?_, hu⟩⟩
    have hi := hu.providers i
    rw [hp] at hi
    generalize u.providers[i]? = o at hi ⊢
    cases hi
    rfl
  | some p =>
    obtain ⟨drawn, h⟩ := Provider.draws_lookup user p
    have hstock : p.replies = drawn () ++ (p.lookup user).2.replies := h.stock ()
    obtain ⟨hlt, hget⟩ := List.getElem?_eq_some_iff.1 hp
    refine ⟨fun j => if i = j then drawn () else [], fun j => ?_, fun u left hl hu => ?_⟩
    · simp only [stocks, repliesOf]
      by_cases hj : i = j
      · subst hj
        simp [hlt, hget, hstock]
      · simp [hj]
    · have hi := hu.providers i
      rw [hp, if_pos rfl] at hi
      generalize hup : u.providers[i]? = o at hi ⊢
      cases hi with
      | @some _ pu hi =>
        have hleft : (p.lookup user).2.replies = [] → left i = [] := by
          intro hnil
          exact hl i (by simp [stocks, repliesOf, hlt, hnil])
        obtain ⟨pu', hlookup, hpu'⟩ := h.alike pu (fun _ => left i) (fun _ => hleft) hi
        simp only [hlookup]
        refine ⟨_, rfl, hu.source, hu.callFaults, hu.calls, hu.openFaults, ?_,
          fun j => ?_⟩
        · simp [hu.length]
        · obtain ⟨hult, -⟩ := List.getElem?_eq_some_iff.1 hup
          by_cases hj : i = j
          · subst hj
            simp only [List.getElem?_set_self hlt, List.getElem?_set_self hult]
            exact .some hpu'
          · have hother := hu.providers j
            rw [if_neg hj, List.nil_append] at hother
            simpa only [List.getElem?_set_ne hj] using hother

theorem draws_answer {own : PermissionConfig} {x : Exchange Need.Answer}
    (hx : (answer own x.1 s).1 = x.2)
    (ho : ∀ y ∈ openings [x], y = .ok ()) :
    ∃ drawn, stocks.Draws (fun u u' => answer own x.1 u = (x.2, u')) s
      (answer own x.1 s).2 drawn := by
  obtain ⟨q, r⟩ := x
  cases q with
  | store c =>
    obtain rfl : r = .ok () := ho r (by simp)
    exact ⟨_, draws_open hx⟩
  | call k =>
    have hx : (s.answerCall own k).1 = r := hx
    exact ⟨_, hx ▸ draws_call own k s⟩
  | groups i user =>
    have hx : (s.answerGroups i user).1 = r := hx
    exact hx ▸ draws_groups i user s

theorem draws_answers {own : PermissionConfig} {t : List (Exchange Need.Answer)}
    {s' : Surroundings}
    (ho : ∀ y ∈ openings t, y = .ok ()) (ha : Answers (answer own) t s s') :
    ∃ drawn, stocks.Draws (Answers (answer own) t) s s' drawn := by
  refine Stocks.draws_answers (fun x hx s hs => draws_answer hs fun y hy => ho y ?_) ha
  obtain ⟨before, after, rfl⟩ := List.append_of_mem hx
  rw [← List.singleton_append, openings_append, openings_append]
  exact List.mem_append_right _ (List.mem_append_left _ hy)

theorem repliesOf_answer {i : ProviderId} (own : PermissionConfig) (q : Need) (s : Surroundings)
    (hs : s.repliesOf i = []) : (answer own q s).2.repliesOf i = [] := by
  cases q with
  | store c =>
    obtain ⟨source, he⟩ := answerOpen_snd c s
    simp only [answer, he]
    exact hs
  | call k =>
    obtain ⟨source, he⟩ := answerCall_snd own k s
    simp only [answer, he]
    exact hs
  | groups j user =>
    obtain ⟨drawn, h⟩ := draws_groups j user s
    exact (h.eq_nil hs).2

end Surroundings

end AccessControl
