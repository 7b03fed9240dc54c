import AccessControl.Json.Record
import AccessControl.Settings.Layer

/-!
# Settings

Layers laid over one another in order. One broken layer leaves nothing to be found, so that whatever
has a default takes it, and whatever is required fails.
-/

namespace AccessControl

structure Settings where
  /-- What all layers together define, unless one of them is broken. -/
  members? : Option Settings.Members
deriving Repr, Inhabited

namespace Settings

def join (under top : Option Members) : Option Members :=
  match under, top with
  | some ms, some ts => some (overlayMembers ts ms)
  | _, _ => none

def ofLayers (p : Place) (ls : List Layer) : Except SettingsError Settings :=
  (ls.mapM (Layer.read p)).map fun layers => ⟨layers.foldl join (some [])⟩

def value? (s : Settings) (path : String) : Option Json := s.members?.bind (find? path)

def contains (s : Settings) (path : String) : Bool := (s.value? path).isSome

def get {α : Type} (s : Settings) (path : String) (read? : Json → Option α) :
    Except SettingsError α :=
  match (s.value? path).bind read? with
  | some a => .ok a
  | none => .error .parse

def getOr {α : Type} (s : Settings) (path : String) (default : α) (read? : Json → Option α) :
    Except SettingsError α :=
  if s.contains path then s.get path read? else .ok default

def text? : Json → Option String
  | .str s => some s
  | _ => none

def record? {α : Type} (fields : List Json.Field) (build : List Json.Scalar → Option α) (v : Json) :
    Option α :=
  (Json.readAs none fields build v.reading).toOption

def list? {α : Type} (item? : Json → Option α) : Json → Option (List α)
  | .arr items => items.mapM item?
  | _ => none

theorem value?_eq_none_of_broken {s : Settings} (h : s.members? = none) (path : String) :
    s.value? path = none := by
  simp [value?, h]

theorem getOr_eq_default {α : Type} {s : Settings} {path : String} (default : α)
    (read? : Json → Option α) (h : s.contains path = false) :
    s.getOr path default read? = .ok default := by
  simp [getOr, h]

theorem getOr_eq_get {α : Type} {s : Settings} {path : String} (default : α)
    (read? : Json → Option α) (h : s.contains path = true) :
    s.getOr path default read? = s.get path read? := by
  simp [getOr, h]

end Settings

end AccessControl
