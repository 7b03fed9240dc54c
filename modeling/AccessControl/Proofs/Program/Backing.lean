import AccessControl.Program.Run
import AccessControl.Proofs.Session.Episode
import AccessControl.Proofs.Postgres.Dispatch

/-!
# The authority of a run

What the authority of a run asks for is answered from a registry, a server and a service.
Surroundings that hold the same registry, server and service answer it the same, so a run carries
its operation out as a session does in such surroundings.
-/

namespace AccessControl.Program

open Dialogue (Exchange Answers)
open Sql

variable {α : Type} {c : PermissionConfig} {b : Backing} {w w' : Registry × Peers}
  {s u : Surroundings} {n : Need} {t : List (Exchange Need.Answer)}

theorem run_onTables (c : PermissionConfig) (d : Postgres.Conversation α) (r : Registry)
    (peers : Peers) :
    let y := (Postgres.statements (.ofConfig c) d).run (Registry.execute c.datasource)
      (r, peers.server)
    (Backing.onTables c d).run Peers.answer (r, peers) =
      (y.1, y.2.1, { peers with server := y.2.2 }) := by
  intro y
  rw [Backing.onTables, Dialogue.run_refine]
  refine Dialogue.run_part (Registry.execute c.datasource) _
    (f := fun v => (v.1, { peers with server := v.2 })) ?_ _ (r, peers.server)
  intro q v
  rfl

theorem run_onService (d : Http.Conversation α) (r : Registry) (peers : Peers) :
    (Backing.onService d).run Peers.answer (r, peers) =
      ((d.run Http.Script.answer peers.service).1, r,
        { peers with service := (d.run Http.Script.answer peers.service).2 }) := by
  rw [Backing.onService, Dialogue.run_refine]
  refine Dialogue.run_part Http.Script.answer _ (f := fun v => (r, { peers with service := v }))
    ?_ _ peers.service
  intro q v
  rfl

namespace Backing

def answer (b : Backing) (n : Need) (w : Registry × Peers) : n.Answer × Registry × Peers :=
  (b.meet n).run Peers.answer w

/-- Surroundings without faults that hold what a backing draws on. -/
structure Supplies (b : Backing) (w : Registry × Peers) (s : Surroundings) : Prop where
  source : s.source = .tables w.1 w.2.server
  providers : s.providers = (b.endpoint.map fun e => .service e w.2.service).toList
  openFaults : s.openFaults = []
  callFaults : s.callFaults = []
  registered : ∀ name, (w.1.pool? name).isSome = (b.registry.pool? name).isSome

namespace Supplies

theorem answerStore (hs : b.Supplies w s) (c : PermissionConfig) :
    (s.answerOpen c).1 = (b.answer (.store c) w).1 ∧
      b.Supplies (b.answer (.store c) w).2 (s.answerOpen c).2 := by
  obtain ⟨r, peers⟩ := w
  have hfault : s.openFaults.head?.getD none = none := by rw [hs.openFaults]; rfl
  simp only [Surroundings.answerOpen, hfault, hs.source, Source.openStore, Source.converse, answer,
    meet, run_onTables, ← hs.registered]
  refine ⟨trivial, rfl, hs.providers, ?_, hs.callFaults, ?_⟩
  · rw [hs.openFaults]
    rfl
  · intro name
    exact (Postgres.isSome_pool?_run _ _).trans (hs.registered name)

theorem answerCall (hs : b.Supplies w s) (k : StoreCall) :
    (s.answerCall b.config k).1 = (b.answer (.call k) w).1 ∧
      b.Supplies (b.answer (.call k) w).2 (s.answerCall b.config k).2 := by
  obtain ⟨r, peers⟩ := w
  have hfault : s.fault? k = none := by simp [Surroundings.fault?, hs.callFaults]
  simp only [Surroundings.answerCall, hfault, hs.source, Source.call, Source.converse, answer,
    meet, run_onTables]
  refine ⟨trivial, rfl, hs.providers, hs.openFaults, hs.callFaults, ?_⟩
  intro name
  exact (Postgres.isSome_pool?_run _ _).trans (hs.registered name)

theorem answerGroups {i : ProviderId} (hs : b.Supplies w s) (hi : b.authority.provider = some i)
    (user : String) : (s.answerGroups i user).1 = (b.answer (.groups i user) w).1 ∧
      b.Supplies (b.answer (.groups i user) w).2 (s.answerGroups i user).2 := by
  obtain ⟨r, peers⟩ := w
  obtain ⟨e, he, rfl⟩ := Option.map_eq_some_iff.1 hi
  have hproviders : s.providers = [.service e peers.service] := by
    rw [hs.providers, he]
    rfl
  simp only [Surroundings.answerGroups, hproviders, List.getElem?_cons_zero, Provider.lookup,
    answer, meet, he, run_onService]
  refine ⟨trivial, hs.source, ?_, hs.openFaults, hs.callFaults, hs.registered⟩
  rw [he]
  rfl

theorem answer (hs : b.Supplies w s) (hn : b.authority.Seeks n) :
    (s.answer b.config n).1 = (b.answer n w).1 ∧
      b.Supplies (b.answer n w).2 (s.answer b.config n).2 := by
  cases n with
  | store c => exact hs.answerStore c
  | call k => exact hs.answerCall k
  | groups i user => exact hs.answerGroups hn user

end Supplies

end Backing

end AccessControl.Program
