import AccessControl.Program.Run
import AccessControl.Proofs.Json.PrintedText

/-!
# Outcomes in JSON

What is printed of an outcome as JSON is one object, and its members tell the outcome in full: no
two outcomes are printed alike.
-/

namespace AccessControl

open Json

namespace Json

def str? : Json → Option String
  | .str s => some s
  | _ => none

def bool? : Json → Option Bool
  | .bool b => some b
  | _ => none

def strs? : Json → Option (List String)
  | .arr items => items.mapM str?
  | _ => none

theorem strs?_strings (ss : List String) : (strings ss).strs? = some ss := by
  rw [strings, strs?]
  induction ss with
  | nil => rfl
  | cons s ss ih => rw [List.map_cons, List.mapM_cons, ih]; rfl

end Json

namespace Outcome

def kind : Outcome → String
  | .done _ => "done"
  | .decision _ _ _ => "decision"
  | .roles _ _ => "roles"

def fieldNames : Outcome → List String
  | .done _ => ["message"]
  | .decision _ _ _ => ["user", "permission", "allowed"]
  | .roles _ _ => ["permission", "roles"]

def ofMembers? (ms : List (String × Json)) : Option Outcome := do
  let kind ← (← member? "result" ms).str?
  if kind = "done" then
    let message ← (← member? "message" ms).str?
    some (.done message)
  else if kind = "decision" then
    let user ← (← member? "user" ms).str?
    let permission ← (← member? "permission" ms).str?
    let allowed ← (← member? "allowed" ms).bool?
    some (.decision user permission allowed)
  else if kind = "roles" then
    let permission ← (← member? "permission" ms).str?
    let ids ← (← member? "roles" ms).strs?
    some (.roles permission ids)
  else none

/-- A text is one document, an object that tells an outcome by its members and has no others. -/
def ToldBy (o : Outcome) (text : String) : Prop :=
  ∃ ms, (∀ j, DocumentText j text.toList ↔ j = .obj ms) ∧ ms.map (·.1) = "result" :: o.fieldNames ∧
    member? "result" ms = some (.str o.kind) ∧ ofMembers? ms = some o

variable {o o' : Outcome} {text : String}

theorem ToldBy.unique (h : o.ToldBy text) (h' : o'.ToldBy text) : o = o' := by
  obtain ⟨ms, hms, -, -, ho⟩ := h
  obtain ⟨ms', hms', -, -, ho'⟩ := h'
  obtain ⟨⟩ := (hms _).1 ((hms' _).2 rfl)
  exact Option.some.inj (ho.symm.trans ho')

theorem numberFree_toJson (o : Outcome) : NumberFree o.toJson := by
  have hstrings (ss : List String) : NumberFree (strings ss) := by
    refine .arr fun v hv => ?_
    obtain ⟨s, -, rfl⟩ := List.mem_map.1 hv
    exact .str s
  cases o with
  | done message => refine .obj ?_; simp [NumberFree.str]
  | decision user permission allowed => refine .obj ?_; simp [NumberFree.str, NumberFree.bool]
  | roles permission ids => refine .obj ?_; simp [NumberFree.str, hstrings]

theorem depth_toJson_le (o : Outcome) : o.toJson.depth ≤ 2 := by
  have hdepths (ss : List String) : depths (ss.map .str) = 0 := by
    induction ss with
    | nil => rfl
    | cons s ss ih => rw [List.map_cons, depths, ih]; rfl
  cases o with
  | done message => exact Nat.le_succ 1
  | decision user permission allowed => exact Nat.le_succ 1
  | roles permission ids =>
    simp [toJson, strings, Json.depth, memberDepths, hdepths]

theorem documentText_printed (o : Outcome) :
    DocumentText o.toJson (Program.printed true o).toList := by
  have hblank : Reading.Blanks ['\n'] := fun c hc => .inr (.inl (List.mem_singleton.1 hc))
  have htext := (treeText_pretty (numberFree_toJson o)).append_blanks hblank
  refine documentText_iff.2 ⟨?_, Nat.le_trans (depth_toJson_le o) (by decide)⟩
  simpa [Program.printed] using htext

theorem exists_members_toJson (o : Outcome) :
    ∃ ms, o.toJson = .obj ms ∧ ms.map (·.1) = "result" :: o.fieldNames ∧
      member? "result" ms = some (.str o.kind) ∧ ofMembers? ms = some o := by
  cases o with
  | done message => exact ⟨_, rfl, rfl, rfl, rfl⟩
  | decision user permission allowed => exact ⟨_, rfl, rfl, rfl, rfl⟩
  | roles permission ids =>
    refine ⟨_, rfl, rfl, rfl, ?_⟩
    simp [ofMembers?, member?, str?, strs?_strings]

theorem toldBy_printed (o : Outcome) : o.ToldBy (Program.printed true o) := by
  obtain ⟨ms, hms, hnames, hresult, ho⟩ := exists_members_toJson o
  have hparse := parse_eq_ok_iff.2 (documentText_printed o)
  refine ⟨ms, fun j => ?_, hnames, hresult, ho⟩
  rw [← parse_eq_ok_iff, hparse, hms, Except.ok.injEq, eq_comm]

end Outcome

/-- What is printed as JSON tells the outcome, and tells no other. -/
theorem Program.printed_json_lossless :
    (∀ o : Outcome, o.ToldBy (printed true o)) ∧ Function.Injective (printed true) := by
  refine ⟨Outcome.toldBy_printed, fun o o' heq => ?_⟩
  have ho := Outcome.toldBy_printed o
  rw [heq] at ho
  exact ho.unique (Outcome.toldBy_printed o')

example : Program.printed true (.roles "reports:read" ["a\"b", "\x1b"]) =
    "\x7b\n  \"result\": \"roles\",\n  \"permission\": \"reports:read\",\n" ++
      "  \"roles\": [\n    \"a\\\"b\",\n    \"\\u001b\"\n  ]\n\x7d\n" := by
  decide +kernel

end AccessControl
