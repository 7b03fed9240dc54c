import AccessControl.Json.Basic
import AccessControl.Text.Ascii

/-!
# Trees of settings

Settings from several places are laid over one another: objects are joined member by member, all
else is replaced. A value is found by a dotted path.
-/

namespace AccessControl.Settings

abbrev Members : Type := List (String × Json)

/-- A member laid over a list of members, `under` giving what it becomes there. -/
def upsert (name : String) (under : Option Json → Json) : Members → Members
  | [] => [(name, under none)]
  | (k, w) :: rest =>
    if k = name then (k, under (some w)) :: rest else (k, w) :: upsert name under rest

theorem member?_upsert (name other : String) (under : Option Json → Json) (ms : Members) :
    Json.member? other (upsert name under ms) =
      if name = other then some (under (Json.member? name ms)) else Json.member? other ms := by
  induction ms with
  | nil => simp [upsert, Json.member?]
  | cons m ms ih =>
    obtain ⟨k, w⟩ := m
    by_cases hk : k = name
    · subst hk
      by_cases ho : k = other <;> simp [upsert, Json.member?, ho]
    · by_cases ho : k = other
      · subst ho
        simp [upsert, Json.member?, hk, Ne.symm hk]
      · simp [upsert, Json.member?, hk, ho, ih]

mutual
def overlay : Json → Option Json → Json
  | .obj top, some (.obj under) => .obj (overlayMembers top under)
  | v, _ => v

def overlayMembers : Members → Members → Members
  | [], under => under
  | (k, v) :: rest, under => overlayMembers rest (upsert k (overlay v) under)
end

def findAt : List String → Json → Option Json
  | [], v => some v
  | name :: path, v =>
    if name.isEmpty then some v
    else
      match v with
      | .obj ms => (Json.member? name ms).bind (findAt path)
      | _ => none

def pathOf (s : String) : List String := (Text.splitOn '.' s.toList).map String.ofList

def find? (path : String) (ms : Members) : Option Json := findAt (pathOf path) (.obj ms)

def nest : List String → Json → Json
  | [], v => v
  | name :: path, v => .obj [(name, nest path v)]

def plain? : Json → Option Json
  | .int n => if -0x8000000000000000 ≤ n ∧ n < 0x10000000000000000 then some (.int n) else none
  | .float x => some (if x.isFinite then .float x else .null)
  | .arr xs => (plainItems xs).map .arr
  | .obj ms => (plainMembers ms).map .obj
  | v => some v
where
  plainItems : List Json → Option (List Json)
    | [] => some []
    | v :: vs =>
      match plain? v, plainItems vs with
      | some v, some vs => some (v :: vs)
      | _, _ => none
  plainMembers : Members → Option Members
    | [] => some []
    | (k, v) :: ms =>
      match plain? v, plainMembers ms with
      | some v, some ms => some ((k, v) :: ms)
      | _, _ => none

end AccessControl.Settings
