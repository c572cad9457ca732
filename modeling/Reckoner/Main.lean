import Reckoner.CommandLine.Machine
import Reckoner.CommandLine.Plan
import Std.Time.Format
import Std.Time.Zoned

/-!
# The program

The program looks at the files that a run may open, runs on that picture of them, and then makes the
directories and appends the texts that the run has added.
-/

namespace Reckoner.CommandLine

/-- The present time. -/
def now : IO Moment := do
  let date ← Std.Time.DateTime.now
  let utc := Std.Time.DateTime.ofTimestampWithZone date.toTimestamp .UTC
  return ⟨utc.format "uuuu-MM-dd'T'HH:mm:ss.SSSSSS" ++ "+00:00",
    date.format "uuuu-MM-dd HH:mm:ss"⟩

/-- A place as text. -/
def placeText (place : List String) : String := String.intercalate "/" place

/-- Add what is at a place to a picture of the files; contents are not looked at. -/
def look (files : Files) (place : List String) : IO Files := do
  let there := (← IO.currentDir) / placeText place
  if (files.kind? place).isSome then return files
  else if ← there.isDir then return { files with directories := files.directories ++ [place] }
  else if ← there.pathExists then return { files with contents := files.contents ++ [(place, "")] }
  else return files

/-- The environment file in the working directory. -/
def lookAtEnvironmentFile : IO Files := do
  let there := (← IO.currentDir) / Settings.environmentFile
  if ← there.isDir then return ⟨[[Settings.environmentFile]], [], []⟩
  else if ← there.pathExists then
    return ⟨[], [([Settings.environmentFile], ← IO.FS.readFile there)], []⟩
  else return .empty

/-- The variables of the environment that the settings may come from. -/
def environmentOf (files : Files) : IO (List (String × String)) :=
  (Settings.names.map (Settings.environmentStart ++ ·) ++
    files.environmentFile.references).filterMapM fun name => do
      return (← IO.getEnv name).map fun value => (name, value)

/-- The rest of the standard input. -/
partial def readRest (text : String) : IO String := do
  let line ← (← IO.getStdin).getLine
  if line.isEmpty then return text else readRest (text ++ line)

/-- The standard input, which is read only if it is needed. -/
def openInput (isNeeded : Bool) : IO StandardInput := do
  if ← (← IO.getStdin).isTty then return .terminal
  else if isNeeded then
    return .stream (String.ofList (Text.unifyLineEnds (← readRest "").toList))
  else return .closed

/-- Make the directories and append the texts by which files have grown. -/
def store (before after : Files) : IO Unit := do
  let here ← IO.currentDir
  for place in after.directories.drop before.directories.length do
    IO.FS.createDir (here / placeText place)
  for (place, text) in after.contents do
    let old := before.read? place
    if old != some text then
      let handle ← IO.FS.Handle.mk (here / placeText place) .append
      handle.putStr (String.ofList (text.toList.drop (old.getD "").length))

/-- Run the program and give its status. -/
def program (args : List String) : IO UInt32 := do
  let environmentFile ← lookAtEnvironmentFile
  let inv : Invocation := ⟨args, ← environmentOf environmentFile, .closed⟩
  let places := (inv.paths .machine environmentFile).flatMap Path.waypoints
  let files ← places.foldlM look environmentFile
  let input ← openInput (inv.readsInput .machine files)
  let outcome := run .machine (← now) { inv with input := input } files
  store files outcome.journal.files
  (← IO.getStderr).putStr outcome.journal.console
  (← IO.getStdout).putStr outcome.output
  match outcome.ending with
  | .ok status => return status.toUInt32
  | .error a =>
    IO.eprintln a.message
    return 1

end Reckoner.CommandLine

/-- Run the program. -/
def main (args : List String) : IO UInt32 := Reckoner.CommandLine.program args
