import AccessControl.Proofs.Identity.Lookup
import AccessControl.Proofs.Session.Episode
import AccessControl.Proofs.Session.Surroundings
import Mathlib.Tactic.MkIffOfInductiveProp

/-!
# Checks of users that a service knows

A check gives a decision only from groups that a service found and, unless there are none, from the
one answer of the store about them. Whatever else happens is an error that says where it comes from.
-/

namespace AccessControl

open Dialogue (Exchange)

namespace Session

variable {s : Session} {n : Nat} {a a' : Authority} {i : ProviderId} {e : Endpoint}
  {script : Http.Script} {user : String} {p : Permission} {gs : List Group}
  {t : List (Exchange Need.Answer)}

def Finds (s : Session) (a : Authority) (user : String) (gs : List Group) : Prop :=
  ∃ i e script reply, a.provider = some i ∧
    s.surroundings.providers[i]? = some (.service e script) ∧
    e.finalReply? user Http.Script.answer script = some reply ∧ Http.isSuccess reply.status = true ∧
    Group.listOfBody? reply.body = some gs

def Misses (s : Session) (a : Authority) (user : String) (err : IdentityError) : Prop :=
  ∃ i e script, a.provider = some i ∧
    s.surroundings.providers[i]? = some (.service e script) ∧
    e.Fails user Http.Script.answer script err

theorem answerGroups_service (hs : s.surroundings.providers[i]? = some (.service e script)) :
    (s.surroundings.answerGroups i user).1 =
      ((e.lookupGroups user).run Http.Script.answer script).1 := by
  simp [Surroundings.answerGroups, hs, Provider.lookup]

theorem finds_iff (hp : a.provider = some i)
    (hs : s.surroundings.providers[i]? = some (.service e script)) :
    s.Finds a user gs ↔ (s.surroundings.answerGroups i user).1 = .ok gs := by
  rw [answerGroups_service hs, Endpoint.lookup_eq_ok_iff]
  constructor
  · rintro ⟨j, e', script', reply, hp', hs', hr⟩
    cases hp.symm.trans hp'
    cases hs.symm.trans hs'
    exact ⟨reply, hr⟩
  · rintro ⟨reply, hr⟩
    exact ⟨i, e, script, reply, hp, hs, hr⟩

theorem misses_iff {err : IdentityError} (hp : a.provider = some i)
    (hs : s.surroundings.providers[i]? = some (.service e script)) :
    s.Misses a user err ↔ (s.surroundings.answerGroups i user).1 = .error err := by
  rw [answerGroups_service hs, Endpoint.lookup_eq_error_iff]
  constructor
  · rintro ⟨j, e', script', hp', hs', hf⟩
    cases hp.symm.trans hp'
    cases hs.symm.trans hs'
    exact hf
  · intro hf
    exact ⟨i, e, script, hp, hs, hf⟩

theorem not_finds_of_unbound (hp : a.provider = none) : ¬ s.Finds a user gs := by
  rintro ⟨i, e, script, reply, hi, -⟩
  cases hp.symm.trans hi

theorem not_misses_of_unbound {err : IdentityError} (hp : a.provider = none) :
    ¬ s.Misses a user err := by
  rintro ⟨i, e, script, hi, -⟩
  cases hp.symm.trans hi

def Opens (a : Authority) (t : List (Exchange Need.Answer)) : Prop :=
  openings t = if a.opened then [] else [.ok ()]

/-- What has to be found, opened and answered for a check to come to a decision. -/
@[mk_iff]
inductive Decides (s : Session) (a : Authority) (user : String) (p : Permission)
    (t : List (Exchange Need.Answer)) : Bool → Prop
  | roleless (hf : s.Finds a user []) (ho : openings t = []) (hc : storeCalls t = []) :
    Decides s a user p t false
  | answered {gs : List Group} {b : Bool} (hf : s.Finds a user gs) (hgs : gs ≠ [])
      (ho : Opens a t)
      (hc : storeCalls t = [⟨.hasAny (gs.map fun g => ⟨g.id, g.displayName⟩) p, .ok b⟩]) :
    Decides s a user p t b

@[mk_iff]
inductive Breaks (s : Session) (a : Authority) (user : String) (p : Permission)
    (t : List (Exchange Need.Answer)) : AuthorityError → Prop
  | unbound (hp : a.provider = none) (ho : openings t = []) (hc : storeCalls t = []) :
    Breaks s a user p t (.configuration "no identity provider is bound")
  | unresolved {e : IdentityError} (hm : s.Misses a user e) (ho : openings t = [])
      (hc : storeCalls t = []) : Breaks s a user p t (.roleResolution user e)
  | sourceless {gs : List Group} (hf : s.Finds a user gs) (hgs : gs ≠ []) (ha : a.opened = false)
      (hs : a.hasSource = false) (ho : openings t = []) (hc : storeCalls t = []) :
    Breaks s a user p t (.configuration "no data source is bound")
  | unconfigured {gs : List Group} (hf : s.Finds a user gs) (hgs : gs ≠ [])
      (ha : a.opened = false) (hs : a.hasSource = true) (hn : a.config = none)
      (ho : openings t = []) (hc : storeCalls t = []) :
    Breaks s a user p t (.configuration "no permission configuration is set")
  | unopened {gs : List Group} {e : StoreError} (hf : s.Finds a user gs) (hgs : gs ≠ [])
      (ha : a.opened = false) (ho : openings t = [.error e]) (hc : storeCalls t = []) :
    Breaks s a user p t (.store e)
  | unanswered {gs : List Group} {e : StoreError} (hf : s.Finds a user gs) (hgs : gs ≠ [])
      (ho : Opens a t)
      (hc : storeCalls t = [⟨.hasAny (gs.map fun g => ⟨g.id, g.displayName⟩) p, .error e⟩]) :
    Breaks s a user p t (.store e)

theorem check_verdict {r : Except AuthorityError Bool} {u : Surroundings}
    (hservice : ∀ i, a.provider = some i →
      ∃ e script, s.surroundings.providers[i]? = some (.service e script))
    (hc : a.Course (.check user p) t r a')
    (ha : Dialogue.Answers (Surroundings.answer a.own) t s.surroundings u) :
    (∀ b, .ok b = r ↔ s.Decides a user p t b) ∧
      ∀ err, .error err = r ↔ s.Breaks a user p t err := by
  have hunbound (hp : a.provider = none) :
      (∀ gs, ¬ s.Finds a user gs) ∧ ∀ err, ¬ s.Misses a user err :=
    ⟨fun _ => not_finds_of_unbound hp, fun _ => not_misses_of_unbound hp⟩
  have hbound {i : ProviderId} {x : Except IdentityError (List Group)} (hp : a.provider = some i)
      (hx : (s.surroundings.answerGroups i user).1 = x) :
      (∀ gs, s.Finds a user gs ↔ x = .ok gs) ∧ ∀ err, s.Misses a user err ↔ x = .error err := by
    obtain ⟨e, script, hs⟩ := hservice i hp
    exact ⟨fun gs => hx ▸ finds_iff hp hs, fun err => hx ▸ misses_iff hp hs⟩
  have hroles (gs : List Group) : Role.ofGroups gs = gs.map fun g => ⟨g.id, g.displayName⟩ := rfl
  cases hc with
  | unbound hp =>
    obtain ⟨hf, hm⟩ := hunbound hp
    simp [decides_iff, breaks_iff, hf, hm, hp]
  | unresolved hp =>
    obtain ⟨hf, hm⟩ := hbound hp ha.1
    simp [decides_iff, breaks_iff, hf, hm, hp]
  | roleless hp =>
    obtain ⟨hf, hm⟩ := hbound hp ha.1
    simp [decides_iff, breaks_iff, hf, hm, hp]
  | unready hn hr =>
    cases hn with
    | managing ho => cases ho
    | checking hp hgs =>
      obtain ⟨hf, hm⟩ := hbound hp ha.1
      cases hr with
      | sourceless ho hs =>
        simp [decides_iff, breaks_iff, hf, hm, hp, hgs, ho, hs]
      | unconfigured ho hs hc =>
        simp [decides_iff, breaks_iff, hf, hm, hp, hgs, ho, hs, hc]
      | refused ho hs hc =>
        simp [decides_iff, breaks_iff, hf, hm, hp, hgs, ho, hs, hc]
  | served hn hr he =>
    cases hn with
    | managing ho => cases ho
    | checking hp hgs =>
      obtain ⟨hf, hm⟩ := hbound hp ha.1
      cases he with
      | @check _ _ x =>
        cases hr with
        | held ho =>
          cases x <;> simp [decides_iff, breaks_iff, Opens, hf, hm, hp, hgs, ho, hroles]
        | opening ho hs hc =>
          cases x <;> simp [decides_iff, breaks_iff, Opens, hf, hm, hp, hgs, ho, hs, hc, hroles]

/-- Whatever the service replies, the opens come to and the store answers, a check decides only as
it should and fails in every other case. -/
theorem check_decides_iff (hn : s.authorities[n]? = some a)
    (hservice : ∀ i, a.provider = some i →
      ∃ e script, s.surroundings.providers[i]? = some (.service e script))
    (user : String) (p : Permission) :
    ∃ r s', s.perform n (.check user p) = some (r, s') ∧
      let t := s.askedFor n (.check user p)
      (∀ b, r = .ok b ↔ s.Decides a user p t b) ∧
      (∀ err, r = .error err ↔ s.Breaks a user p t err) ∧
      s'.surroundings.opens = s.surroundings.opens + (openings t).length ∧
      s'.surroundings.calls = s.surroundings.calls ++ (storeCalls t).map (·.1) := by
  obtain ⟨r, s', hp⟩ := exists_perform hn (.check user p)
  obtain ⟨b, a', hb, hc, ha, -⟩ := perform_course hp
  cases hn.symm.trans hb
  obtain ⟨hok, herr⟩ := check_verdict hservice hc ha
  refine ⟨r, s', hp, fun b => ?_, fun err => ?_, Surroundings.counts_of_answers ha⟩
  · rw [eq_comm]
    exact hok b
  · rw [eq_comm]
    exact herr err

theorem check_decides_iff_redirected :
    let p : Permission := ⟨"dashboard-1", "view"⟩
    let body := "[[\"ops\",\"Operators\"]]".toList.map fun c => UInt8.ofNat c.toNat
    let base : Web.Address :=
      ⟨"https", "", "", some (.name "idp.local"), none, .segments ["api"], none, none⟩
    let script : Http.Script :=
      ⟨true, [some ⟨307, [("Location", "https://groups.idp.local/v2")], []⟩,
        some ⟨200, [], body⟩], []⟩
    let a : Authority := ⟨true, some .standard, some 0, false⟩
    let s : Session := ⟨[a], ⟨.memory ⟨[(p, ["ops"])]⟩,
      [.service ⟨base, none, ⟨fun _ => none⟩⟩ script], [], [], 0, []⟩⟩
    ∃ s', s.perform 0 (.check "alice" p) = some (.ok true, s') ∧
      s.Decides a "alice" p (s.askedFor 0 (.check "alice" p)) true ∧
      s'.surroundings.calls = [.hasAny [⟨"ops", "Operators"⟩] p] := by
  intro p body base script a s
  have heval : (s.perform 0 (.check "alice" p)).map
      (fun x => (x.1.toOption, x.2.surroundings.calls)) =
      some (some true, [.hasAny [⟨"ops", "Operators"⟩] p]) := by decide +kernel
  obtain ⟨r, s', hp, hok, -⟩ := check_decides_iff (s := s) (n := 0) (a := a) rfl
    (fun i hi => by cases hi; exact ⟨_, _, rfl⟩) "alice" p
  rw [hp, Option.map_some, Option.some_inj, Prod.mk.injEq] at heval
  cases r with
  | error e => cases heval.1
  | ok b =>
    cases heval.1
    exact ⟨s', hp, (hok true).1 rfl, heval.2⟩

end Session

end AccessControl
