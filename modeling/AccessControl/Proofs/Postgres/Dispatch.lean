import AccessControl.Proofs.Postgres.Traffic

/-!
# Statements given to a server

A statement that is given to a pool is sent if there is a connection for it, and a log holds what
was sent. Opening the store gives the statements of the schema in order, up to the first that fails,
and a call gives none of them.
-/

namespace AccessControl.Postgres

open Sql

/-- A statement given to a pool, what came back, and whether there was a connection for it. -/
structure Dispatch where
  statement : Statement
  answer : Answer
  sent : Bool

def sentOf (ds : List Dispatch) : List Statement := (ds.filter (·.sent)).map (·.statement)

@[simp]
theorem sentOf_append (ds ds' : List Dispatch) : sentOf (ds ++ ds') = sentOf ds ++ sentOf ds' := by
  rw [sentOf, List.filter_append, List.map_append]
  rfl

theorem sentOf_cons (d : Dispatch) (ds : List Dispatch) :
    sentOf (d :: ds) = (if d.sent then [d.statement] else []) ++ sentOf ds := by
  cases h : d.sent <;> simp [sentOf, h]

theorem sentOf_flatten (dss : List (List Dispatch)) : sentOf dss.flatten = dss.flatMap sentOf := by
  induction dss with
  | nil => rfl
  | cons ds dss ih => rw [List.flatten_cons, sentOf_append, ih, List.flatMap_cons]

def connects (n : String) (w : Wire) : Bool :=
  match w.1.pool? n with
  | none => false
  | some p => (p.ready w.2).1.isOk

variable {α β : Type} {n m : String} {w : Wire} {q : Statement} {c : PermissionConfig} {t : Tables}

def dispatches (n : String) : Dialogue Statement (fun _ => Answer) α → Wire → List Dispatch
  | .done _, _ => []
  | .ask q next, w =>
    let y := Registry.execute n q w
    ⟨q, y.1, connects n w⟩ :: dispatches n (next y.1) y.2
  | .note _ d, w => dispatches n d w

theorem dispatches_bind (d : Dialogue Statement (fun _ => Answer) α)
    (f : α → Dialogue Statement (fun _ => Answer) β) (w : Wire) : dispatches n (d.bind f) w =
      dispatches n d w ++ dispatches n (f (d.run (Registry.execute n) w).1)
        (d.run (Registry.execute n) w).2 := by
  induction d generalizing w with
  | done a => rfl
  | ask q next ih => simp only [Dialogue.bind, dispatches, Dialogue.run, ih, List.cons_append]
  | note x d ih => exact ih w

theorem map_statement_dispatches (d : Dialogue Statement (fun _ => Answer) α) (w : Wire) :
    (dispatches n d w).map (·.statement) = (d.exchanges (Registry.execute n) w).map (·.1) := by
  induction d generalizing w with
  | done a => rfl
  | ask q next ih => exact congrArg _ (ih _ _)
  | note x d ih => exact ih w

theorem poolExecute_connects (q : Statement) (p : Pool) (s : Server) :
    (p.execute q s).2.2.log = s.log ++ (if (p.ready s).1.isOk then [q] else []) ∧
      ((p.execute q s).1.isOk = true → (p.ready s).1.isOk = true) := by
  have hlog := p.ready_log s
  simp only [Pool.execute]
  generalize p.ready s = x at hlog ⊢
  obtain ⟨y, s'⟩ := x
  cases y with
  | error f =>
    refine ⟨?_, fun hok => ?_⟩
    · rw [hlog]
      exact (List.append_nil _).symm
    · cases hok
  | ok p' =>
    refine ⟨?_, fun _ => rfl⟩
    rw [Server.execute_log, hlog]
    rfl

theorem execute_connects (q : Statement) (w : Wire) :
    (Registry.execute n q w).2.2.log = w.2.log ++ (if connects n w then [q] else []) ∧
      ((Registry.execute n q w).1.isOk = true → connects n w = true) := by
  obtain ⟨r, s⟩ := w
  cases hp : r.pool? n with
  | none =>
    simp only [Registry.execute, connects, hp]
    refine ⟨(List.append_nil _).symm, fun hok => ?_⟩
    cases hok
  | some p =>
    simp only [Registry.execute, connects, hp]
    exact poolExecute_connects q p s

theorem log_run_eq (d : Dialogue Statement (fun _ => Answer) α) (w : Wire) :
    (d.run (Registry.execute n) w).2.2.log = w.2.log ++ sentOf (dispatches n d w) := by
  induction d generalizing w with
  | done a => exact (List.append_nil _).symm
  | note x d ih => exact ih w
  | ask q next ih =>
    rw [Dialogue.run, ih, (execute_connects q w).1, dispatches, sentOf_cons, List.append_assoc]

theorem isSome_pool?_update (r : Registry) (p : Pool) :
    ((r.update n p).pool? m).isSome = (r.pool? m).isSome := by
  obtain ⟨pools⟩ := r
  simp only [Registry.update, Registry.pool?]
  induction pools with
  | nil => rfl
  | cons e pools ih =>
    obtain ⟨name, p'⟩ := e
    rw [List.map_cons]
    split <;> simp only [Registry.lookup] <;> split
    · rfl
    · exact ih
    · rfl
    · exact ih

theorem isSome_pool?_execute (q : Statement) (w : Wire) :
    ((Registry.execute n q w).2.1.pool? m).isSome = (w.1.pool? m).isSome := by
  obtain ⟨r, s⟩ := w
  simp only [Registry.execute]
  cases r.pool? n with
  | none => rfl
  | some p => exact isSome_pool?_update r _

theorem isSome_pool?_run (d : Dialogue Statement (fun _ => Answer) α) (w : Wire) :
    ((d.run (Registry.execute n) w).2.1.pool? m).isSome = (w.1.pool? m).isSome :=
  Dialogue.run_keeps _ (P := fun v : Wire => (v.1.pool? m).isSome = (w.1.pool? m).isSome)
    (fun q v hv => (isSome_pool?_execute q v).trans hv) d rfl

/-- Statements given in order, each when the one before it succeeded, up to the end or to the first
that fails; one that fails may not have been sent. -/
inductive Attempt : List Statement → List Dispatch → Bool → Prop
  | done : Attempt [] [] true
  | failed {q : Statement} {qs : List Statement} (f : Failure) (sent : Bool) :
    Attempt (q :: qs) [⟨q, .error f, sent⟩] false
  | next {q : Statement} {qs : List Statement} {ds : List Dispatch} {ok : Bool} (y : Table)
      (h : Attempt qs ds ok) : Attempt (q :: qs) (⟨q, .ok y, true⟩ :: ds) ok

theorem Attempt.prefix_sentOf {qs : List Statement} {ds : List Dispatch} {ok : Bool}
    (h : Attempt qs ds ok) : sentOf ds <+: qs := by
  induction h with
  | done => exact List.nil_prefix
  | failed f sent =>
    cases sent with
    | false => exact List.nil_prefix
    | true => exact List.prefix_append [_] _
  | next y h ih => exact (List.prefix_cons_inj _).2 ih

theorem Attempt.sentOf_eq {qs : List Statement} {ds : List Dispatch} (h : Attempt qs ds true) :
    sentOf ds = qs := by
  generalize hok : true = ok at h
  induction h with
  | done => rfl
  | failed f sent => cases hok
  | next y h ih => rw [sentOf_cons, ih hok]; rfl

theorem attempt_create (cs : List Command) (w : Wire) :
    let d := statements t (ensureSchema.create t cs)
    Attempt (cs.map (·.statement t)) (dispatches n d w) (d.run (Registry.execute n) w).1.isOk := by
  induction cs generalizing w with
  | nil => exact .done
  | cons c cs ih =>
    have hsent := (execute_connects (n := n) (c.statement t) w).2
    have hrest := ih (Registry.execute n (c.statement t) w).2
    simp only [ensureSchema.create, statements, Dialogue.refine, Dialogue.question, Dialogue.bind,
      dispatches, Dialogue.run, List.map_cons]
    generalize Registry.execute n (c.statement t) w = y at hsent hrest ⊢
    obtain ⟨a, w'⟩ := y
    cases a with
    | error f => exact .failed f _
    | ok y =>
      -- only a statement that was sent can succeed
      rw [hsent rfl]
      exact .next y hrest

theorem Attempt.bind {ε ε' : Type} {d : Dialogue Statement (fun _ => Answer) (Except ε α)}
    {f : Except ε α → Dialogue Statement (fun _ => Answer) (Except ε' β)} {qs : List Statement}
    (h : Attempt qs (dispatches n d w) (d.run (Registry.execute n) w).1.isOk)
    (hf : ∀ x v, dispatches n (f x) v = [] ∧ ((f x).run (Registry.execute n) v).1.isOk = x.isOk) :
    Attempt qs (dispatches n (d.bind f) w) ((d.bind f).run (Registry.execute n) w).1.isOk := by
  rw [dispatches_bind, Dialogue.run_bind, (hf _ _).1, (hf _ _).2, List.append_nil]
  exact h

def schema (t : Tables) : List Statement :=
  [Command.createPermissions, .createGrants, .createIndex].map (·.statement t)

def demanded (c : PermissionConfig) : List Statement :=
  if c.createTables then schema (.ofConfig c) else []

def Command.Kind.isSchema : Command.Kind → Bool
  | .createPermissions => true
  | .createGrants => true
  | .createIndex => true
  | _ => false

def IsData (t : Tables) (q : Statement) : Prop :=
  ∃ k : Command, k.kind.isSchema = false ∧ q = k.statement t

theorem pieces_words (k : Command.Kind) :
    ∃ w ps, k.pieces = .words w :: ps ∧ w.toList ≠ [] ∧
      (w.toList.head? = some 'C' ↔ k.isSchema = true) := by
  cases k <;> exact ⟨_, _, rfl, by decide, by decide⟩

theorem head?_template (t : Tables) (k : Command.Kind) :
    (k.template t).toList.head? = some 'C' ↔ k.isSchema = true := by
  obtain ⟨w, ps, hk, hne, hiff⟩ := pieces_words k
  have htext : k.template t = w ++ Piece.render t ps := by
    rw [Command.Kind.template, hk]
    rfl
  rw [htext, String.toList_append, List.head?_append_of_ne_nil _ hne, hiff]

theorem IsData.not_mem_schema (h : IsData t q) : q ∉ schema t := by
  obtain ⟨k, hk, rfl⟩ := h
  intro hq
  obtain ⟨k', hk', heq⟩ := List.mem_map.1 hq
  have htext : k'.kind.template t = k.kind.template t := congrArg Statement.text heq
  have hschema : k'.kind.isSchema = true := by
    simp only [List.mem_cons, List.not_mem_nil, or_false] at hk'
    rcases hk' with rfl | rfl | rfl <;> rfl
  rw [← head?_template t, htext, head?_template t, hk] at hschema
  cases hschema

namespace Deed

def dispatches (c : PermissionConfig) (d : Deed) (w : Wire) : List Dispatch :=
  Postgres.dispatches c.datasource (d.spoken c w) w

theorem attempt_opening (hw : (w.1.pool? c.datasource).isSome = true) :
    Attempt (demanded c) (opening.dispatches c w)
      ((opening.spoken c w).run (Registry.execute c.datasource) w).1.isOk := by
  simp only [dispatches, spoken, conversation, openStore, hw, demanded]
  cases c.createTables with
  | false => exact .done
  | true =>
    have h := attempt_create (t := .ofConfig c) (n := c.datasource)
      [.createPermissions, .createGrants, .createIndex] w
    rw [Bool.not_true, if_neg Bool.false_ne_true, if_pos rfl, if_pos rfl, statements,
      Dialogue.refine_bind]
    refine h.bind fun x v => ?_
    cases x with
    | error e => exact ⟨rfl, rfl⟩
    | ok u => exact ⟨rfl, rfl⟩

theorem dispatches_opening_of_unregistered (hw : (w.1.pool? c.datasource).isSome = false) :
    opening.dispatches c w = [] ∧
      (opening.spoken c w).run (Registry.execute c.datasource) w =
        (.error (.storage ("Data source not found: " ++ c.datasource)), w) := by
  simp only [dispatches, spoken, conversation, openStore, hw]
  exact ⟨rfl, rfl⟩

theorem isData_of_mem_plan {k : Command.Kind} {m : StoreCall.Method} (hk : k ∈ plan (some m)) :
    k.isSchema = false := by
  cases m <;> simp [plan] at hk <;> grind [Command.Kind.isSchema]

theorem isData_dispatches {k : StoreCall} {d : Dispatch} (hd : d ∈ (call k).dispatches c w) :
    IsData (.ofConfig c) d.statement := by
  obtain ⟨qs, hqs, hplan, -⟩ := (call k).asked_commands c w
  have hmem : d.statement ∈ (call k).asked c w := by
    rw [asked, ← map_statement_dispatches]
    exact List.mem_map_of_mem hd
  rw [hqs] at hmem
  obtain ⟨q, hq, heq⟩ := List.mem_map.1 hmem
  exact ⟨q, isData_of_mem_plan (hplan.subset (List.mem_map_of_mem hq)), heq.symm⟩

end Deed

end AccessControl.Postgres
