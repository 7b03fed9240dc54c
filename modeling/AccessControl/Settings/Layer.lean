import AccessControl.Settings.Environment
import AccessControl.Settings.Error
import AccessControl.Settings.Toml.Document
import AccessControl.Settings.Yaml.Value
import AccessControl.Text.Ascii
import AccessControl.Text.Utf8

/-!
# Layers of settings

A layer is a file, a document in one of two formats, or a part of the environment. A file that is
missing or of no known format cannot be a layer. A file that cannot be read, or a document that is
broken, is one, but it has no members.
-/

namespace AccessControl.Settings

inductive Format where
  | yaml
  | toml
deriving DecidableEq, Repr

def extension? (path : String) : Option String := do
  let components := (Text.splitOn '/' path.toList).map String.ofList
  let name ← (components.filter fun c => !c.isEmpty && c != ".").getLast?
  let cs := name.toList
  let ext := (cs.reverse.takeWhile (· != '.')).reverse
  if ext.length + 1 < cs.length then some (String.ofList ext) else none

namespace Format

def ofExtension? (ext : String) : Option Format :=
  if ext = "yaml" ∨ ext = "yml" then some .yaml
  else if ext = "toml" then some .toml
  else none

def members? : Format → String → Option Members
  | .yaml => Yaml.members?
  | .toml => Toml.members?

end Format

/-- A file: its bytes, unless it cannot be read. -/
inductive File where
  | bytes (bs : List UInt8)
  | unreadable
deriving DecidableEq, Repr

namespace File

def ofText (s : String) : File := .bytes (Text.utf8 s.toList)

def text? : File → Option String
  | bytes bs => (Text.ofUtf8? bs).map String.ofList
  | unreadable => none

end File

structure Place where
  file? : String → Option File
  environment : Environment

instance : Inhabited Place := ⟨⟨fun _ => none, []⟩⟩

inductive Layer where
  | file (path : String)
  | yaml (text : String)
  | environment (start : String)
deriving DecidableEq, Repr

namespace Layer

def read (p : Place) : Layer → Except SettingsError (Option Members)
  | .file path =>
    match p.file? path with
    | none => .error (.sourceNotFound path)
    | some content =>
      match (extension? path).bind Format.ofExtension? with
      | none => .error (.unsupportedFormat path)
      | some format => .ok (content.text?.bind format.members?)
  | .yaml text => .ok (Yaml.members? text)
  | .environment start => .ok (some (p.environment.members start))

end Layer

end AccessControl.Settings
