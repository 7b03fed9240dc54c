import AccessControl.Proofs.Postgres.Dispatch
import AccessControl.Proofs.Transcript

/-!
# Answers and outcomes

A call sends one statement, and after some answers to it a second one. The last statement that it
sends decides the outcome: what its answer refuses, the failure it comes to, or what it returns. The
statements are written out here as they reach the server.
-/

namespace AccessControl.Postgres

open Sql
open Dialogue (Exchange Transcript)

def failureOf {α : Type} : Except Failure α → Option Failure
  | .error f => some f
  | .ok _ => none

/-- A statement of a call, what its answer may fail with, the violation that the call is prepared
for, and what is said of any other failure. -/
structure Step where
  statement : Statement
  failure? : Answer → Option Failure
  foreseen : Option String
  context : String

namespace Step

variable (t : Tables) (p : Permission)

def insert : Step where
  statement := ⟨"INSERT INTO " ++ t.permissions ++ " (resource, action) VALUES ($1, $2)",
    [.text p.resource, .text p.action]⟩
  failure? := failureOf
  foreseen := some "23505"
  context := "Failed to insert permission"

def delete : Step where
  statement := ⟨"DELETE FROM " ++ t.permissions ++ " WHERE resource = $1 AND action = $2",
    [.text p.resource, .text p.action]⟩
  failure? := failureOf
  foreseen := some "23503"
  context := "Failed to delete permission"

def count : Step where
  statement := ⟨"SELECT COUNT(*) FROM " ++ t.grants ++ " rp JOIN " ++ t.permissions ++
      " p ON p.id = rp.permission_id\n             WHERE p.resource = $1 AND p.action = $2",
    [.text p.resource, .text p.action]⟩
  failure? a := failureOf (a.bind (Table.required Value.int?))
  foreseen := none
  context := "Failed to count grants"

def find : Step where
  statement := ⟨"SELECT id FROM " ++ t.permissions ++ " WHERE resource = $1 AND action = $2",
    [.text p.resource, .text p.action]⟩
  failure? a := failureOf (a.bind (Table.optional Value.int?))
  foreseen := none
  context := "Failed to look up permission"

def grant (id : Int) (r : Role) : Step where
  statement := ⟨"INSERT INTO " ++ t.grants ++ " (permission_id, role_id) VALUES ($1, $2)" ++
      "\n             ON CONFLICT (permission_id, role_id) DO NOTHING",
    [.int id, .text r.id]⟩
  failure? := failureOf
  foreseen := some "23503"
  context := "Failed to grant permission"

def revokeAll : Step where
  statement := ⟨"DELETE FROM " ++ t.grants ++
      " WHERE permission_id IN\n                (SELECT id FROM " ++ t.permissions ++
      " WHERE resource = $1 AND action = $2)",
    [.text p.resource, .text p.action]⟩
  failure? := failureOf
  foreseen := none
  context := "Failed to revoke permission"

def revoke (r : Role) : Step where
  statement := ⟨"DELETE FROM " ++ t.grants ++
      " WHERE role_id = $3 AND permission_id IN\n                (SELECT id FROM " ++
      t.permissions ++ " WHERE resource = $1 AND action = $2)",
    [.text p.resource, .text p.action, .text r.id]⟩
  failure? := failureOf
  foreseen := none
  context := "Failed to revoke permission from role"

def check (roles : List Role) : Step where
  statement := ⟨"SELECT EXISTS(\n                SELECT 1 FROM " ++ t.grants ++ " rp JOIN " ++
      t.permissions ++ " p ON p.id = rp.permission_id\n                " ++
      "WHERE p.resource = $1 AND p.action = $2 AND rp.role_id = ANY($3)\n            )",
    [.text p.resource, .text p.action, .texts (roles.map (·.id))]⟩
  failure? a := failureOf (a.bind (Table.required Value.bool?))
  foreseen := none
  context := "Failed to check permission"

def list (id : Int) : Step where
  statement := ⟨"SELECT role_id FROM " ++ t.grants ++ " WHERE permission_id = $1 ORDER BY role_id",
    [.int id]⟩
  failure? a := failureOf (a.bind (Table.all Value.text?))
  foreseen := none
  context := "Failed to list granted roles"

inductive Blames (x : Step) (a : Answer) : StoreError → Prop
  | mk {f : Failure} (hf : x.failure? a = some f)
      (hv : ∀ code ∈ x.foreseen, f.hasCode code = false) :
    Blames x a (.storage (x.context ++ ": " ++ f.message))

end Step

def first (t : Tables) : StoreCall → Step
  | .insert p => .insert t p
  | .delete p => .delete t p
  | .grant p _ => .find t p
  | .revokeAll p => .revokeAll t p
  | .revoke p r => .revoke t p r
  | .hasAny roles p => .check t p roles
  | .grantedRoles p => .find t p

/-- The step that follows an answer to the first one. -/
inductive Second (t : Tables) : StoreCall → Answer → Step → Prop
  | count {p : Permission} (text : String) :
    Second t (.delete p) (.error (.database "23503" text)) (.count t p)
  | grant {p : Permission} {r : Role} (id : Int) (rows : List Value) (n : Nat) :
    Second t (.grant p r) (.ok ⟨.int id :: rows, n⟩) (.grant t id r)
  | list {p : Permission} (id : Int) (rows : List Value) (n : Nat) :
    Second t (.grantedRoles p) (.ok ⟨.int id :: rows, n⟩) (.list t id)

/-- The first statement of a call, and the second one exactly if there is one to follow. -/
inductive Planned (t : Tables) (k : StoreCall) : List (Statement × Answer) → Prop
  | single {a : Answer} (h : ∀ x, ¬ Second t k a x) : Planned t k [((first t k).statement, a)]
  | double {a : Answer} {x : Step} (h : Second t k a x) (b : Answer) :
    Planned t k [((first t k).statement, a), (x.statement, b)]

/-- The error that a call ends with after the answers to its statements. A negative count is
reported as the largest one. -/
inductive Refuses (t : Tables) : StoreCall → List Answer → StoreError → Prop
  | taken {p : Permission} (text : String) :
    Refuses t (.insert p) [.error (.database "23505" text)] (.alreadyExists p)
  | undeleted {p : Permission} (rows : List Value) :
    Refuses t (.delete p) [.ok ⟨rows, 0⟩] (.notFound p)
  | ungranted {p : Permission} {r : Role} (n : Nat) :
    Refuses t (.grant p r) [.ok ⟨[], n⟩] (.notFound p)
  | unlisted {p : Permission} (n : Nat) : Refuses t (.grantedRoles p) [.ok ⟨[], n⟩] (.notFound p)
  | gone {p : Permission} {r : Role} (a : Answer) (text : String) :
    Refuses t (.grant p r) [a, .error (.database "23503" text)] (.notFound p)
  | held {p : Permission} (a : Answer) (n : Int) (rows : List Value) (m : Nat) :
    Refuses t (.delete p) [a, .ok ⟨.int n :: rows, m⟩]
      (.stillGranted p (if n < 0 then UInt64.size - 1 else n.toNat))
  | firstFails {k : StoreCall} {a : Answer} {e : StoreError} (h : (first t k).Blames a e) :
    Refuses t k [a] e
  | secondFails {k : StoreCall} {a b : Answer} {x : Step} {e : StoreError} (hx : Second t k a x)
    (h : x.Blames b e) : Refuses t k [a, b] e

inductive Returns : (k : StoreCall) → List Answer → k.Answer → Prop
  | insert {p : Permission} (y : Table) : Returns (.insert p) [.ok y] ()
  | delete {p : Permission} {y : Table} (hy : y.affected ≠ 0) : Returns (.delete p) [.ok y] ()
  | grant {p : Permission} {r : Role} (a : Answer) (y : Table) : Returns (.grant p r) [a, .ok y] ()
  | revokeAll {p : Permission} (y : Table) : Returns (.revokeAll p) [.ok y] ()
  | revoke {p : Permission} {r : Role} (y : Table) : Returns (.revoke p r) [.ok y] ()
  | hasAny {p : Permission} {roles : List Role} (b : Bool) (rows : List Value) (n : Nat) :
    Returns (.hasAny roles p) [.ok ⟨.bool b :: rows, n⟩] b
  | grantedRoles {p : Permission} {y : Table} {ids : List String} (a : Answer)
      (hy : y.rows = ids.map .text) : Returns (.grantedRoles p) [a, .ok y] ids

/-- The outcome of a call is accounted for by the statements that it sent and their answers. -/
structure Accounts (t : Tables) (k : StoreCall) (xs : List (Statement × Answer))
    (o : k.Result) : Prop where
  planned : Planned t k xs
  error_iff : ∀ e, o = .error e ↔ Refuses t k (xs.map (·.2)) e
  ok_iff : ∀ v, o = .ok v ↔ Returns k (xs.map (·.2)) v

section

variable {t : Tables} {k : StoreCall} {q q' : Command} {a b : Answer} {x y : Step}
  {e e' : StoreError} {p : Permission} {r : Role} {f : Failure}
  {xs ys : List (Exchange fun _ : Command => Answer)}

theorem Step.Blames.unique (h : x.Blames a e) (h' : x.Blames a e') : e = e' := by
  obtain ⟨hf, -⟩ := h
  obtain ⟨hf', -⟩ := h'
  cases hf.symm.trans hf'
  rfl

theorem Second.unique (h : Second t k a x) (h' : Second t k a y) : x = y := by
  cases h <;> cases h' <;> rfl

theorem Step.not_blames_of_none (h : x.failure? a = none) : ¬ x.Blames a e := by
  rintro ⟨hf, -⟩
  cases h.symm.trans hf

theorem Step.not_blames_of_foreseen {code text : String}
    (hf : x.failure? a = some (.database code text)) (hx : x.foreseen = some code) :
    ¬ x.Blames a e := by
  rintro ⟨hf', hv⟩
  cases hf.symm.trans hf'
  simpa [Failure.hasCode] using hv code hx

theorem readRows_text_eq_ok_iff {vs : List Value} {ids : List String} :
    Table.all.readRows Value.text? vs = .ok ids ↔ vs = ids.map .text := by
  constructor
  · intro h
    induction vs generalizing ids with
    | nil =>
      cases h
      rfl
    | cons v vs ih =>
      cases v with
      | text x =>
        simp only [Table.all.readRows, Value.text?] at h
        split at h
        · cases h
        · rename_i xs hxs
          cases h
          rw [ih hxs, List.map_cons]
      | null => cases h
      | int n => cases h
      | bool b => cases h
  · rintro rfl
    exact readRows_text ids

theorem Step.list_failure? (id : Int) {u : Table} {ids : List String}
    (hu : u.rows = ids.map .text) : (Step.list t id).failure? (.ok u) = none := by
  change failureOf (Table.all.readRows Value.text? u.rows) = none
  rw [readRows_text_eq_ok_iff.2 hu]
  rfl

theorem Returns.not_refuses {as : List Answer} {v : k.Answer} (h : Returns k as v) :
    ¬ Refuses t k as e := by
  intro h'
  cases h with
  | delete hy =>
    cases h' with
    | undeleted rows => exact hy rfl
    | firstFails h' => exact Step.not_blames_of_none rfl h'
  | grant a y =>
    cases h' with
    | secondFails hx h' =>
      cases hx
      exact Step.not_blames_of_none rfl h'
  | grantedRoles a hy =>
    cases h' with
    | secondFails hx h' =>
      cases hx
      exact Step.not_blames_of_none (Step.list_failure? _ hy) h'
  | _ =>
    cases h' with
    | firstFails h' => exact Step.not_blames_of_none rfl h'

theorem Refuses.eq_of_first (h : Refuses t k [a] e) (hb : (Postgres.first t k).Blames a e') :
    e = e' := by
  cases h with
  | taken text => exact absurd hb (Step.not_blames_of_foreseen rfl rfl)
  | firstFails h => exact h.unique hb
  | _ => exact absurd hb (Step.not_blames_of_none rfl)

theorem Refuses.eq_of_second (h : Refuses t k [a, b] e) (hx : Second t k a x)
    (hb : x.Blames b e') : e = e' := by
  cases h with
  | gone a text =>
    cases hx
    exact absurd hb (Step.not_blames_of_foreseen rfl rfl)
  | held a n rows m =>
    cases hx
    exact absurd hb (Step.not_blames_of_none rfl)
  | secondFails hy h =>
    cases hx.unique hy
    exact h.unique hb

theorem Refuses.unique {as : List Answer} (h : Refuses t k as e) (h' : Refuses t k as e') :
    e = e' := by
  have hk := h
  cases h with
  | firstFails hb => exact (h'.eq_of_first hb).symm
  | secondFails hx hb => exact (h'.eq_of_second hx hb).symm
  | gone a text | held a n rows m =>
    cases h' with
    | secondFails hx hb => exact hk.eq_of_second hx hb
    | _ => rfl
  | _ =>
    cases h' with
    | firstFails hb => exact hk.eq_of_first hb
    | _ => rfl

theorem Returns.unique {as : List Answer} {v v' : k.Answer} (h : Returns k as v)
    (h' : Returns k as v') : v = v' := by
  cases h with
  | grantedRoles a hy =>
    cases h' with
    | grantedRoles a hy' =>
      exact List.map_injective_iff.2 (fun _ _ => Value.text.inj) (hy.symm.trans hy')
  | _ =>
    cases h'
    rfl

theorem Accounts.refused {ds : List (Statement × Answer)} (hp : Planned t k ds)
    (h : Refuses t k (ds.map (·.2)) e) : Accounts t k ds (.error e) where
  planned := hp
  error_iff e' := by
    rw [Except.error.injEq]
    exact ⟨fun he => he ▸ h, h.unique⟩
  ok_iff v := iff_of_false nofun fun hr => hr.not_refuses h

theorem Accounts.returned {ds : List (Statement × Answer)} {v : k.Answer} (hp : Planned t k ds)
    (h : Returns k (ds.map (·.2)) v) : Accounts t k ds (.ok v) where
  planned := hp
  error_iff e := iff_of_false nofun h.not_refuses
  ok_iff v' := by
    rw [Except.ok.injEq]
    exact ⟨fun hv => hv ▸ h, h.unique⟩

inductive Writes (t : Tables) : Command → Step → Prop
  | insert (p : Permission) : Writes t (.insertPermission p) (.insert t p)
  | delete (p : Permission) : Writes t (.deletePermission p) (.delete t p)
  | count (p : Permission) : Writes t (.countGrants p) (.count t p)
  | find (p : Permission) : Writes t (.findPermission p) (.find t p)
  | grant (id : Int) (r : Role) : Writes t (.insertGrant id r.id) (.grant t id r)
  | revokeAll (p : Permission) : Writes t (.deleteGrants p) (.revokeAll t p)
  | revoke (p : Permission) (r : Role) : Writes t (.deleteGrant p r.id) (.revoke t p r)
  | check (p : Permission) (roles : List Role) :
    Writes t (.holdsAny p (roles.map (·.id))) (.check t p roles)
  | list (id : Int) : Writes t (.listRoles id) (.list t id)

theorem Writes.context (h : Writes t q x) : q.context = x.context := by cases h <;> rfl

theorem Writes.params (h : Writes t q x) : q.params = x.statement.params := by cases h <;> rfl

theorem Writes.text (h : Writes t q x) : q.kind.template t = x.statement.text := by
  have hmark (c : Column) (n : Nat) : Place.mark ⟨c, n⟩ = "$" ++ Nat.repr n := rfl
  have hrepr : Nat.repr 1 = "1" ∧ Nat.repr 2 = "2" ∧ Nat.repr 3 = "3" := ⟨rfl, rfl, rfl⟩
  have hwhere (s : String) : " WHERE " ++ ("role_id = $3" ++
      (" AND permission_id IN\n                (SELECT id FROM " ++ s)) =
      " WHERE role_id = $3 AND permission_id IN\n                (SELECT id FROM " ++ s := by
    simp only [← String.append_assoc, String.reduceAppend]
  cases h <;> dsimp only [Command.kind, Step.insert, Step.delete, Step.count, Step.find,
      Step.grant, Step.revokeAll, Step.revoke, Step.check, Step.list] <;>
    simp only [Command.Kind.template, Command.Kind.pieces, Piece.render, Piece.text,
      List.foldr_cons, List.foldr_nil, Column.name, hmark, hrepr, String.reduceAppend,
      String.append_assoc, hwhere]

theorem Writes.statement (h : Writes t q x) : q.statement t = x.statement := by
  rw [Command.statement, h.text, h.params]

def told (t : Tables) (xs : List (Exchange fun _ : Command => Answer)) :
    List (Statement × Answer) :=
  xs.map fun x => (x.1.statement t, x.2)

theorem planned_single (hq : Writes t q (first t k)) (h : ∀ x, ¬ Second t k a x) :
    Planned t k (told t [⟨q, a⟩]) := by
  simp only [told, List.map_cons, List.map_nil, hq.statement]
  exact .single h

theorem planned_double (hq : Writes t q (first t k)) (hx : Second t k a x) (hq' : Writes t q' x) :
    Planned t k (told t [⟨q, a⟩, ⟨q', b⟩]) := by
  simp only [told, List.map_cons, List.map_nil, hq.statement, hq'.statement]
  exact .double hx b

theorem accounts_firstFails (hq : Writes t q (first t k)) (h : ∀ x, ¬ Second t k a x)
    (hf : (first t k).failure? a = some f)
    (hv : ∀ code ∈ (first t k).foreseen, f.hasCode code = false) :
    Accounts t k (told t [⟨q, a⟩]) (.error (.storage (q.context ++ ": " ++ f.message))) := by
  rw [hq.context]
  exact .refused (planned_single hq h) (.firstFails (.mk hf hv))

theorem accounts_secondFails (hq : Writes t q (first t k)) (hx : Second t k a x)
    (hq' : Writes t q' x) (hf : x.failure? b = some f)
    (hv : ∀ code ∈ x.foreseen, f.hasCode code = false) :
    Accounts t k (told t [⟨q, a⟩, ⟨q', b⟩])
      (.error (.storage (q'.context ++ ": " ++ f.message))) := by
  rw [hq'.context]
  exact .refused (planned_double hq hx hq') (.secondFails hx (.mk hf hv))

theorem eq_database_of_hasCode {code : String} (h : f.hasCode code = true) :
    ∃ text, f = .database code text := by
  cases f with
  | database c text =>
    obtain rfl : c = code := by simpa [Failure.hasCode] using h
    exact ⟨text, rfl⟩
  | _ => cases h

theorem rows_of_required {α : Type} {read : Value → Except Failure α} {x : α}
    (h : a.bind (Table.required read) = .ok x) :
    ∃ v rows n, a = .ok ⟨v :: rows, n⟩ ∧ read v = .ok x := by
  cases a with
  | error f => cases h
  | ok t =>
    obtain ⟨vs, n⟩ := t
    cases vs with
    | nil => cases h
    | cons v rows => exact ⟨v, rows, n, rfl, h⟩

theorem eq_int_of_read {v : Value} {n : Int} (h : v.int? = .ok n) : v = .int n := by
  cases v <;> cases h
  rfl

theorem eq_bool_of_read {v : Value} {b : Bool} (h : v.bool? = .ok b) : v = .bool b := by
  cases v <;> cases h
  rfl

theorem eq_of_transcript_storageError {α : Type} {o : Except StoreError α}
    (h : (storageError q f).Transcript xs o) :
    xs = [] ∧ o = .error (.storage (q.context ++ ": " ++ f.message)) := by
  cases h with
  | note h =>
    cases h
    exact ⟨rfl, rfl⟩

theorem hasCode_of_foreseen {code : String} (h : ¬ f.hasCode code = true) :
    ∀ c ∈ some code, f.hasCode c = false := by
  rintro c ⟨⟩
  exact Bool.eq_false_iff.2 h

theorem accounts_insert {o : Except StoreError Unit} (h : (Postgres.insert p).Transcript xs o) :
    Accounts t (.insert p) (told t xs) o := by
  have hq : Writes t (.insertPermission p) (first t (.insert p)) := .insert p
  cases h with
  | @ask _ _ a _ _ h =>
    have hnext : ∀ x, ¬ Second t (.insert p) a x := nofun
    cases a with
    | ok y =>
      cases h
      exact .returned (planned_single hq hnext) (.insert y)
    | error f =>
      dsimp only at h
      split at h
      · rename_i hcode
        obtain ⟨text, rfl⟩ := eq_database_of_hasCode hcode
        cases h
        exact .refused (planned_single hq hnext) (.taken text)
      · rename_i hcode
        obtain ⟨rfl, rfl⟩ := eq_of_transcript_storageError h
        exact accounts_firstFails hq hnext rfl (hasCode_of_foreseen hcode)

theorem accounts_stillGranted {o : Except StoreError Unit} {text : String}
    (h : (stillGranted p).Transcript ys o) : Accounts t (.delete p)
      (told t (⟨.deletePermission p, .error (.database "23503" text)⟩ :: ys)) o := by
  have hq : Writes t (.deletePermission p) (first t (.delete p)) := .delete p
  have hx := Second.count (t := t) (p := p) text
  cases h with
  | @ask _ _ b _ _ h =>
    cases hb : b.bind (Table.required Value.int?) with
    | error f =>
      simp only [hb] at h
      obtain ⟨rfl, rfl⟩ := eq_of_transcript_storageError h
      exact accounts_secondFails hq hx (.count p) (congrArg failureOf hb) nofun
    | ok n =>
      simp only [hb] at h
      cases h
      obtain ⟨v, rows, m, rfl, hv⟩ := rows_of_required hb
      obtain rfl := eq_int_of_read hv
      have hcount : reportedCount n = if n < 0 then UInt64.size - 1 else n.toNat := by
        simp only [reportedCount, ← Int.not_lt]
        split <;> simp_all
      rw [hcount]
      exact .refused (planned_double hq hx (.count p)) (.held _ n rows m)

theorem accounts_delete {o : Except StoreError Unit} (h : (Postgres.delete p).Transcript xs o) :
    Accounts t (.delete p) (told t xs) o := by
  have hq : Writes t (.deletePermission p) (first t (.delete p)) := .delete p
  cases h with
  | @ask _ _ a _ _ h =>
    cases a with
    | ok y =>
      obtain ⟨rows, n⟩ := y
      cases h
      cases n with
      | zero => exact .refused (planned_single hq nofun) (.undeleted rows)
      | succ n => exact .returned (planned_single hq nofun) (.delete n.succ_ne_zero)
    | error f =>
      dsimp only at h
      split at h
      · rename_i hcode
        obtain ⟨text, rfl⟩ := eq_database_of_hasCode hcode
        exact accounts_stillGranted h
      · rename_i hcode
        have hnext : ∀ x, ¬ Second t (.delete p) (.error f) x := by
          rintro x ⟨⟩
          exact hcode rfl
        obtain ⟨rfl, rfl⟩ := eq_of_transcript_storageError h
        exact accounts_firstFails hq hnext rfl (hasCode_of_foreseen hcode)

theorem accounts_withId {next : Int → Conversation (Except StoreError k.Answer)} {o : k.Result}
    (hk : first t k = .find t p)
    (hs : ∀ {a x}, Second t k a x → ∃ id rows n, a = .ok ⟨.int id :: rows, n⟩)
    (hunknown : ∀ n, Refuses t k [.ok ⟨[], n⟩] (.notFound p))
    (hnext : ∀ {id rows n ys}, (next id).Transcript ys o →
      Accounts t k (told t (⟨.findPermission p, .ok ⟨.int id :: rows, n⟩⟩ :: ys)) o)
    (h : (withId p next).Transcript xs o) : Accounts t k (told t xs) o := by
  have hq : Writes t (.findPermission p) (first t k) := hk ▸ .find p
  have hno {a : Answer} (ha : ∀ id rows n, a ≠ .ok ⟨.int id :: rows, n⟩) :
      ∀ x, ¬ Second t k a x := by
    intro x hx
    obtain ⟨id, rows, n, rfl⟩ := hs hx
    exact ha id rows n rfl
  cases h with
  | @ask _ _ a _ _ h =>
    cases ha : a.bind (Table.optional Value.int?) with
    | error f =>
      simp only [ha] at h
      obtain ⟨rfl, rfl⟩ := eq_of_transcript_storageError h
      refine accounts_firstFails hq (hno ?_) (by rw [hk]; exact congrArg failureOf ha)
        (by rw [hk]; exact nofun)
      rintro id rows n rfl
      cases ha
    | ok id? =>
      simp only [ha] at h
      cases a with
      | error f => cases ha
      | ok y =>
        obtain ⟨vs, n⟩ := y
        cases vs with
        | nil =>
          cases ha
          cases h
          exact .refused (planned_single hq (hno nofun)) (hunknown n)
        | cons v rows =>
          cases v with
          | int id =>
            cases ha
            exact hnext h
          | _ => cases ha

theorem accounts_grant {o : Except StoreError Unit} (h : (Postgres.grant p r).Transcript xs o) :
    Accounts t (.grant p r) (told t xs) o := by
  refine accounts_withId (k := .grant p r) rfl ?_ .ungranted ?_ h
  · intro a x hx
    cases hx with
    | grant id rows n => exact ⟨id, rows, n, rfl⟩
  · intro id rows n ys h
    have hq : Writes t (.findPermission p) (first t (.grant p r)) := .find p
    have hx := Second.grant (t := t) (p := p) (r := r) id rows n
    cases h with
    | @ask _ _ b _ _ h =>
      cases b with
      | ok y =>
        cases h
        exact .returned (planned_double hq hx (.grant id r)) (.grant _ y)
      | error f =>
        dsimp only at h
        split at h
        · rename_i hcode
          obtain ⟨text, rfl⟩ := eq_database_of_hasCode hcode
          cases h
          exact .refused (planned_double hq hx (.grant id r)) (.gone _ text)
        · rename_i hcode
          obtain ⟨rfl, rfl⟩ := eq_of_transcript_storageError h
          exact accounts_secondFails hq hx (.grant id r) rfl (hasCode_of_foreseen hcode)

theorem accounts_grantedRoles {o : Except StoreError (List String)}
    (h : (grantedRoles p).Transcript xs o) : Accounts t (.grantedRoles p) (told t xs) o := by
  refine accounts_withId (k := .grantedRoles p) rfl ?_ .unlisted ?_ h
  · intro a x hx
    cases hx with
    | list id rows n => exact ⟨id, rows, n, rfl⟩
  · intro id rows n ys h
    have hq : Writes t (.findPermission p) (first t (.grantedRoles p)) := .find p
    have hx := Second.list (t := t) (p := p) id rows n
    cases h with
    | @ask _ _ b _ _ h =>
      cases hb : b.bind (Table.all Value.text?) with
      | error f =>
        simp only [hb] at h
        obtain ⟨rfl, rfl⟩ := eq_of_transcript_storageError h
        exact accounts_secondFails hq hx (.list id) (congrArg failureOf hb) nofun
      | ok ids =>
        simp only [hb] at h
        cases h
        cases b with
        | error f => cases hb
        | ok y =>
          exact .returned (planned_double hq hx (.list id))
            (.grantedRoles _ (readRows_text_eq_ok_iff.1 hb))

theorem accounts_revokeAll {o : Except StoreError Unit}
    (h : (Postgres.revokeAll p).Transcript xs o) :
    Accounts t (.revokeAll p) (told t xs) o := by
  have hq : Writes t (.deleteGrants p) (first t (.revokeAll p)) := .revokeAll p
  cases h with
  | @ask _ _ a _ _ h =>
    cases a with
    | ok y =>
      cases h with
      | note h =>
        cases h
        exact .returned (planned_single hq nofun) (.revokeAll y)
    | error f =>
      obtain ⟨rfl, rfl⟩ := eq_of_transcript_storageError h
      exact accounts_firstFails hq nofun rfl nofun

theorem accounts_revoke {o : Except StoreError Unit} (h : (Postgres.revoke p r).Transcript xs o) :
    Accounts t (.revoke p r) (told t xs) o := by
  have hq : Writes t (.deleteGrant p r.id) (first t (.revoke p r)) := .revoke p r
  cases h with
  | @ask _ _ a _ _ h =>
    cases a with
    | ok y =>
      cases h
      exact .returned (planned_single hq nofun) (.revoke y)
    | error f =>
      obtain ⟨rfl, rfl⟩ := eq_of_transcript_storageError h
      exact accounts_firstFails hq nofun rfl nofun

theorem accounts_hasAny {roles : List Role} {o : Except StoreError Bool}
    (h : (hasAny roles p).Transcript xs o) : Accounts t (.hasAny roles p) (told t xs) o := by
  have hq : Writes t (.holdsAny p (roles.map (·.id))) (first t (.hasAny roles p)) := .check p roles
  cases h with
  | @ask _ _ a _ _ h =>
    cases ha : a.bind (Table.required Value.bool?) with
    | error f =>
      simp only [ha] at h
      obtain ⟨rfl, rfl⟩ := eq_of_transcript_storageError h
      exact accounts_firstFails hq nofun (congrArg failureOf ha) nofun
    | ok b =>
      simp only [ha] at h
      cases h
      obtain ⟨v, rows, n, rfl, hv⟩ := rows_of_required ha
      obtain rfl := eq_bool_of_read hv
      exact .returned (planned_single hq nofun) (.hasAny b rows n)

theorem accounts_perform {o : k.Result} (h : (perform k).Transcript xs o) :
    Accounts t k (told t xs) o := by
  cases k with
  | insert p =>
    cases h with
    | note h => exact accounts_insert h
  | delete p =>
    cases h with
    | note h => exact accounts_delete h
  | grant p r =>
    cases h with
    | note h => exact accounts_grant h
  | revokeAll p =>
    cases h with
    | note h => exact accounts_revokeAll h
  | revoke p r =>
    cases h with
    | note h => exact accounts_revoke h
  | hasAny roles p => exact accounts_hasAny h
  | grantedRoles p => exact accounts_grantedRoles h

end

end AccessControl.Postgres
