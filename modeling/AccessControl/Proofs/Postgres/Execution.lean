import AccessControl.Proofs.Postgres.Effect

/-!
# A server for the statements

A server that reads each statement from its text and does what it comes to. It gives a row the least
id above all that rows have had, lists texts sorted, and refuses a text that it cannot read.
-/

namespace AccessControl.Postgres

open Sql

def Rows.nextId (r : Rows) : Int := r.used.foldr max 0 + 1

def Outcome.settle (r : Rows) : Outcome → Answer × Rows
  | gives vs => (.ok ⟨vs, 0⟩, r)
  | lists xs => (.ok ⟨(xs.mergeSort fun x y => x ≤ y).map .text, 0⟩, r)
  | leaves n r' => (.ok ⟨[], n⟩, r')
  | adds p => (.ok ⟨[], 1⟩, ⟨r.permissions ++ [⟨r.nextId, p⟩], r.grants, r.nextId :: r.used⟩)
  | violates code => (.error (.database code "violates constraint"), r)

namespace Rows

def serve (t : Tables) (q : Statement) (r : Rows) : Answer × Rows :=
  match r.meaning? t q with
  | none => (.error (.database "42601" "syntax error"), r)
  | some o => o.settle r

theorem nextId_not_mem_used (r : Rows) : r.nextId ∉ r.used := by
  have hle (ids : List Int) : ∀ id ∈ ids, id ≤ ids.foldr max 0 := by
    induction ids with
    | nil => simp
    | cons i ids ih =>
      rintro id (_ | ⟨_, hid⟩)
      · exact Int.le_max_left _ _
      · exact Int.le_trans (ih id hid) (Int.le_max_right _ _)
  intro h
  have := hle r.used r.nextId h
  simp only [nextId] at this
  omega

end Rows

theorem Outcome.settle_allows (r : Rows) (o : Outcome) :
    o.Allows r (o.settle r).1 (o.settle r).2 := by
  cases o with
  | gives vs => exact ⟨⟨vs, .refl _, _, rfl⟩, rfl⟩
  | lists xs =>
    exact ⟨⟨_, List.mergeSort_perm _ _, Text.pairwise_mergeSort _, _, rfl⟩, rfl⟩
  | leaves n r' => exact ⟨⟨_, rfl⟩, rfl⟩
  | adds p => exact ⟨r.nextId, r.nextId_not_mem_used, ⟨_, rfl⟩, rfl⟩
  | violates code => exact ⟨⟨_, rfl⟩, rfl⟩

variable {t : Tables}

theorem serve_serves (P : Statement → Prop) (t : Tables) : Serves P t (Rows.serve t) id := by
  intro q r o _ ho
  have hserve : Rows.serve t q r = o.settle r := by
    rw [Rows.serve, show r.meaning? t q = some o from ho]
  simpa only [id, hserve] using o.settle_allows r

theorem serve_statement (ht : t.Apart) (c : Command) (r : Rows) :
    Rows.serve t (c.statement t) r = (r.outcome c).settle r := by
  rw [Rows.serve, Command.meaning?_statement ht]

theorem standard_apart : (Tables.ofConfig .standard).Apart := by
  have hvalid : PermissionConfig.standard.validate = .ok .standard := by decide +kernel
  obtain ⟨hp, hg, -⟩ := PermissionConfig.names_of_valid hvalid
  exact ⟨hp, hg, by decide⟩

end AccessControl.Postgres
