import AccessControl.Program.Run

/-!
# The program

Variables and files are read before a run, and what it leaves is written after it. No network is
reached from here, so every connection fails, and there are no tables for names beyond ASCII.
-/

open AccessControl

def fileAt? (path : String) : IO (Option Settings.File) := do
  try
    let bytes ← IO.FS.readBinFile path
    return some (.bytes bytes.toList)
  catch
    | .noFileOrDirectory .. | .inappropriateType .. => return none
    | _ => return some .unreadable

def filesAt (paths : List String) : IO (List (String × Settings.File)) := do
  let files ← paths.mapM fileAt?
  return (paths.zip files).filterMap fun (path, file) => file.map fun f => (path, f)

def processVariables : IO Settings.Environment := do
  let some text := (← fileAt? "/proc/self/environ").bind (·.text?) | return []
  return (Text.splitOn '\x00' text.toList).filterMap fun cs =>
    match cs.dropWhile (· != '=') with
    | [] => none
    | _ :: value => some (String.ofList (cs.takeWhile (· != '=')), String.ofList value)

def placeOf (files : List (String × Settings.File)) (environment : Settings.Environment) :
    Settings.Place :=
  ⟨fun path => (files.find? fun f => f.1 = path).map (·.2), environment⟩

def main (words : List String) : IO UInt32 := do
  let environment ← processVariables
  let set ← filesAt [Program.variableFile]
  let files ← filesAt (Program.files (placeOf set environment) words)
  let place := placeOf files environment
  let report := Program.run ⟨fun _ => none⟩ place ⟨⟨false, [], [], []⟩, ⟨false, [], []⟩⟩ words
  for line in report.logLines do
    IO.eprintln line
  IO.print report.stdout
  IO.eprint report.stderr
  return report.exit.toUInt32
