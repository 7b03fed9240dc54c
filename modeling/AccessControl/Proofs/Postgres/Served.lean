import AccessControl.Proofs.Postgres.Account

/-!
# Calls on a server that answers from a script

A statement that is given to a pool is sent if there is a connection for it. One that is sent takes
the next entry of the script for its answer, and one that is not takes none. So a run of calls uses
up as many entries as it sends statements, and each of its calls ends as its answers have it.
-/

namespace AccessControl.Postgres

open Sql
open Dialogue (Exchange)

def answerOf : Option Turn → Answer
  | none => .ok ⟨[], 0⟩
  | some (.table t) => .ok t
  | some (.fails code text) => .error (.database code text)
  | some .closes => .error .closed

def scripted (script : List Turn) (n : Nat) : List Answer :=
  (List.range n).map fun i => answerOf script[i]?

variable {α : Type} {n : String} {w : Wire} {c : PermissionConfig} {t : Tables} {k : StoreCall}

theorem execute_answers (q : Statement) (s : Server) :
    (s.execute q).1 = answerOf s.script[0]? ∧ (s.execute q).2.2.script = s.script.tail := by
  cases hs : s.script with
  | nil => simp [Server.execute, hs, answerOf]
  | cons turn script => cases turn <;> simp [Server.execute, hs, answerOf]

theorem script_connect (s : Server) : s.connect.2.script = s.script := by
  unfold Server.connect
  split <;> rfl

theorem script_ready (p : Pool) (s : Server) : (p.ready s).2.script = s.script := by
  have h := script_connect s
  unfold Pool.ready
  split
  · rfl
  · split
    · rfl
    · split
      · rfl
      · split <;> simp_all

theorem poolExecute_serves (q : Statement) (p : Pool) (s : Server) :
    ((p.ready s).1.isOk = true → (p.execute q s).1 = answerOf s.script[0]? ∧
      (p.execute q s).2.2.script = s.script.tail) ∧
    ((p.ready s).1.isOk = false → (∃ f, (p.execute q s).1 = .error f) ∧
      (p.execute q s).2.2.script = s.script) := by
  have hready := script_ready p s
  simp only [Pool.execute]
  generalize p.ready s = x at hready ⊢
  obtain ⟨y, s'⟩ := x
  cases y with
  | error f => exact ⟨fun h => (Bool.false_ne_true h).elim, fun _ => ⟨⟨f, rfl⟩, hready⟩⟩
  | ok p' =>
    obtain ⟨ha, hs⟩ := execute_answers q s'
    rw [show s'.script = s.script from hready] at ha hs
    exact ⟨fun _ => ⟨ha, hs⟩, fun h => (Bool.false_ne_true h.symm).elim⟩

theorem execute_serves (q : Statement) (w : Wire) :
    (connects n w = true → (Registry.execute n q w).1 = answerOf w.2.script[0]? ∧
      (Registry.execute n q w).2.2.script = w.2.script.tail) ∧
    (connects n w = false → (∃ f, (Registry.execute n q w).1 = .error f) ∧
      (Registry.execute n q w).2.2.script = w.2.script) := by
  obtain ⟨r, s⟩ := w
  cases hp : r.pool? n with
  | none => simp [Registry.execute, connects, hp]
  | some p =>
    simp only [Registry.execute, connects, hp]
    exact poolExecute_serves q p s

def answersOf (ds : List Dispatch) : List Answer := (ds.filter (·.sent)).map (·.answer)

/-- Statements that took the answers of a script, one each if they were sent, and left the rest. -/
structure Served (ds : List Dispatch) (before after : Server) : Prop where
  log : after.log = before.log ++ sentOf ds
  script : after.script = before.script.drop (sentOf ds).length
  answers : answersOf ds = scripted before.script (sentOf ds).length
  unsent : ∀ d ∈ ds, d.sent = false → ∃ f, d.answer = .error f

theorem scripted_add (script : List Turn) (m n : Nat) :
    scripted script (m + n) = scripted script m ++ scripted (script.drop m) n := by
  simp [scripted, List.range_add, List.getElem?_drop]

theorem Served.append {ds ds' : List Dispatch} {s₁ s₂ s₃ : Server} (h : Served ds s₁ s₂)
    (h' : Served ds' s₂ s₃) : Served (ds ++ ds') s₁ s₃ := by
  refine ⟨?_, ?_, ?_, ?_⟩
  · rw [h'.log, h.log, sentOf_append, List.append_assoc]
  · rw [h'.script, h.script, sentOf_append, List.length_append, List.drop_drop]
  · have happend : answersOf (ds ++ ds') = answersOf ds ++ answersOf ds' := by
      simp [answersOf]
    rw [happend, h.answers, h'.answers, h.script, sentOf_append, List.length_append, scripted_add]
  · intro d hd
    rcases List.mem_append.1 hd with hd | hd
    · exact h.unsent d hd
    · exact h'.unsent d hd

theorem Served.nil (s : Server) : Served [] s s :=
  ⟨(List.append_nil _).symm, rfl, rfl, nofun⟩

theorem served_execute (q : Statement) (w : Wire) :
    let y := Registry.execute n q w
    Served [⟨q, y.1, connects n w⟩] w.2 y.2.2 := by
  have hlog := (execute_connects (n := n) q w).1
  obtain ⟨hsent, hunsent⟩ := execute_serves (n := n) q w
  cases hc : connects n w with
  | true =>
    obtain ⟨ha, hs⟩ := hsent hc
    rw [hc] at hlog
    refine ⟨hlog, hs.trans List.drop_one.symm, ?_, ?_⟩
    · simpa [answersOf, sentOf, scripted] using ha
    · intro d hd hf
      rw [List.mem_singleton.1 hd] at hf
      cases hf
  | false =>
    obtain ⟨ha, hs⟩ := hunsent hc
    rw [hc] at hlog
    refine ⟨hlog, hs, rfl, ?_⟩
    intro d hd hf
    rw [List.mem_singleton.1 hd]
    exact ha

theorem served_run (d : Dialogue Statement (fun _ => Answer) α) (w : Wire) :
    Served (dispatches n d w) w.2 (d.run (Registry.execute n) w).2.2 := by
  induction d generalizing w with
  | done a => exact .nil w.2
  | note x d ih => exact ih w
  | ask q next ih => exact (served_execute q w).append (ih _ _)

theorem dispatches_statements (d : Conversation α) (w : Wire) :
    (dispatches n (statements t d) w).map (fun x => (x.statement, x.answer)) =
      (d.exchanges (fun q => Registry.execute n (q.statement t)) w).map
        fun x => (x.1.statement t, x.2) := by
  induction d generalizing w with
  | done a => rfl
  | note x d ih => exact ih w
  | ask q next ih => exact congrArg _ (ih _ _)

def through (c : PermissionConfig) (ks : List StoreCall) (w : Wire) : Wire :=
  ks.foldl (fun w k => (Deed.call k).after c w) w

def given (c : PermissionConfig) : List StoreCall → Wire → List Dispatch
  | [], _ => []
  | k :: ks, w => (Deed.call k).dispatches c w ++ given c ks ((Deed.call k).after c w)

theorem served_through (c : PermissionConfig) (ks : List StoreCall) (w : Wire) :
    Served (given c ks w) w.2 (through c ks w).2 := by
  induction ks generalizing w with
  | nil => exact .nil w.2
  | cons k ks ih => exact (served_run _ w).append (ih _)

/-- Whatever calls were made before and whatever the server answers, the run of calls has taken one
entry of the script for each statement that was sent, and the next call keeps to its plan of
statements, whose answers account for its outcome. -/
theorem calls_accounted (c : PermissionConfig) (ks : List StoreCall) (k : StoreCall) (w : Wire) :
    let v := through c ks w
    Served (given c ks w) w.2 v.2 ∧
      Accounts (.ofConfig c) k (((Deed.call k).dispatches c v).map fun d => (d.statement, d.answer))
        (((Deed.call k).spoken c v).run (Registry.execute c.datasource) v).1 := by
  intro v
  refine ⟨served_through c ks w, ?_⟩
  have h := Dialogue.transcript_run
    (fun q => Registry.execute c.datasource (q.statement (.ofConfig c))) (perform k) v
  have hrun : ((Deed.call k).spoken c v).run (Registry.execute c.datasource) v = _ :=
    run_statements (perform k)
  have hsaid : ((Deed.call k).dispatches c v).map (fun d => (d.statement, d.answer)) = _ :=
    dispatches_statements (perform k) v
  rw [hrun, hsaid]
  exact accounts_perform h

theorem calls_accounted_broken_off :
    let c := PermissionConfig.standard
    let d : DataSourceConfig := .new c.datasource "postgres://db.local/app" true
    let p : Permission := ⟨"dashboard-1", "view"⟩
    let w : Wire := (⟨[(d.name, .idle d)]⟩, ⟨true, [], [.table ⟨[.int 7], 0⟩, .closes], []⟩)
    let k := StoreCall.grant p ⟨"ops", "Operators"⟩
    let v := through c [k] w
    (((Deed.call k).spoken c w).run (Registry.execute c.datasource) w).1 =
        .error (.storage ("Failed to grant permission: " ++ Failure.closed.message)) ∧
      v.2.script = [] ∧
      v.2.log = [⟨"SELECT id FROM permissions WHERE resource = $1 AND action = $2",
          [.text "dashboard-1", .text "view"]⟩,
        ⟨"INSERT INTO role_permissions (permission_id, role_id) VALUES ($1, $2)\n" ++
          "             ON CONFLICT (permission_id, role_id) DO NOTHING",
          [.int 7, .text "ops"]⟩] := by
  intro c d p w k v
  obtain ⟨-, haccounts⟩ := calls_accounted c [] k w
  obtain ⟨hserved, -⟩ := calls_accounted c [k] k w
  have hanswers : (((Deed.call k).dispatches c w).map fun d => (d.statement, d.answer)).map (·.2) =
      [.ok ⟨[.int 7], 0⟩, .error .closed] := by
    decide +kernel
  have hlength : (sentOf (given c [k] w)).length = 2 := by decide +kernel
  refine ⟨(haccounts.error_iff _).2 ?_, hserved.script.trans (hlength ▸ rfl),
    hserved.log.trans (by decide +kernel)⟩
  exact hanswers ▸ .secondFails (.grant 7 [] 0) (.mk rfl (by decide))

end AccessControl.Postgres
