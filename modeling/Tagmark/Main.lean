import Tagmark.Command.Run

/-!
The command line. The files that a command may come to are read, the command is run on them, and what
it changed is written back.
-/

namespace Tagmark

def fileAt? (place : Place) : IO (Option File) := do
  let path := (← IO.currentDir) / ("/" ++ place.print)
  if ← path.isDir then return some .directory
  else if ← path.pathExists then
    try return some (.text (← IO.FS.readFile path))
    catch fault => return some (.unreadable (toString fault))
  else return none

def entryAt (place : Place) : IO (List (String × File)) := do
  return ((← fileAt? place).map fun file => (place.print, file)).toList

partial def entriesBelow (place : Place) : IO (List (String × File)) := do
  let mut found := []
  for entry in ← ((← IO.currentDir) / ("/" ++ place.print)).readDir do
    let inner := place ++ [entry.fileName]
    found := (← entryAt inner) ++ found
    if ← entry.path.isDir then found := (← entriesBelow inner) ++ found
  return found

def Place.along (path : String) : List Place :=
  (Place.ofText path).foldl (fun places name => (places.headD []).follow name :: places) [[]]

def Command.paths (command : Command) : List String :=
  command.config.toList ++ Config.candidates ++
    match command.action with
    | some (.render document output) => document :: output.toList
    | some (.tree document) | some (.frontmatter document) => [document]
    | some (.check directory _) => [directory.getD "."]
    | none => []

def Command.load (command : Command) : IO Files := do
  let files : Files := .ofList [] (toString (← IO.currentDir))
  let mut found := []
  for path in command.paths do
    for place in Place.along (files.fromRoot path) do
      found := (← entryAt place) ++ found
  if let some (.check directory _) := command.action then
    let root := (Place.along (files.fromRoot (directory.getD "."))).headD []
    for (above, _) in Files.ancestors (root ++ [""]) do
      for ruleFile in Files.ruleFiles do
        found := (← entryAt (above ++ ruleFile)) ++ found
    if (← fileAt? root) = some .directory then found := (← entriesBelow root) ++ found
  return .ofList (found.filter fun entry => entry.1 ≠ "") files.here

def writeChanges (before after : Files) : IO Unit :=
  for (name, file) in after.stored.entries do
    if let .text content := file then
      if before.stored.get? name ≠ some file then IO.FS.writeFile ("/" ++ name) content

def tellNotes (verbose : Bool) (notes : List Note) : IO Unit :=
  for note in notes do
    if verbose || note.isWarning then
      let fields := note.fields.map fun (name, value) => " " ++ name ++ "=" ++ value
      IO.eprintln (note.message ++ String.join fields)

end Tagmark

open Tagmark

def main (arguments : List String) : IO UInt32 := do
  let command := (Command.read arguments).toOption
  let files ← match command with
    | some command => command.load
    | none => pure default
  let coloured := (← IO.getEnv "NO_COLOR").isNone
  let outcome := Command.runArguments coloured files arguments
  tellNotes (command.any (·.verbose)) outcome.notes
  try writeChanges files outcome.files
  catch fault =>
    IO.eprintln ("error: " ++ toString fault)
    return 2
  IO.print outcome.output
  IO.eprint outcome.told
  if let some message := outcome.ending.message? then
    IO.eprintln message
  return outcome.ending.exitCode.toUInt32
