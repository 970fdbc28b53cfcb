import HeaderReflection.CommandLine.Run
import HeaderReflection.Log.Json

/-!
# The program

The outer layer: it gathers the files below the current directory and the variables of the environment, runs the command
on them, prints what there is to print and writes the files that have changed. A watcher is woken again and again, and
looks for files that differ from what it saw last.
-/

namespace HeaderReflection

/-- The string of a text. -/
def Text.toString (text : Text) : String := (String.fromUTF8? ⟨text.toArray⟩).getD ""

/-- Gather files and directories into a tree. -/
partial def gather (place : Text) (tree : FileTree) (entries : Array IO.FS.DirEntry) : IO FileTree :=
  entries.foldlM (fun tree entry => do
    let path := joinPath [place, Text.ofString entry.fileName]
    if ← entry.path.isDir then gather path (tree.placeDir path) (← entry.path.readDir)
    else return tree.place path (← IO.FS.readBinFile entry.path).data.toList) tree

/-- The files below the current directory. -/
def gatherHere : IO FileTree := do gather [] {} (← (← IO.currentDir).readDir)

/-- The names whose variables count. -/
def variableNames : List Text :=
  ["package_name", "namespace", "source", "output", "config_list", "exclude", "manifest", "debounce", "common",
   "common.log", "common.log.level"]

/-- What surrounds the run. -/
def gatherEnvironment : IO Environment := do
  let values ← variableNames.filterMapM fun name => do
    let key := variableName name
    return (← IO.getEnv key.toString).map fun value => (key, Text.ofString value)
  return { values, directory := Text.ofString (← IO.currentDir).toString }

/-- Write the files of a tree that another one does not have, and delete those that are gone. -/
def writeChanges (before after : FileTree) : IO Unit := do
  let old := before.files
  for (path, content) in after.files do
    if !old.contains (path, content) then
      IO.FS.createDirAll (parentDir path).toString
      IO.FS.writeBinFile path.toString ⟨content.toArray⟩
  for (path, _) in old do
    if !after.files.any (·.1 = path) then IO.FS.removeFile path.toString

/-- Print a line. -/
def printLine (stream : IO.FS.Stream) (line : Text) : IO Unit := stream.write ⟨(line ++ [Text.lineFeed]).toArray⟩

/-- A line as it is printed. -/
def OutputLine.text : OutputLine → Text
  | .record note => note.json
  | .line content => content

/-- Answer changes of files for as long as the program runs. -/
partial def watchOn (watcher : Watcher) (level : LogLevel) (seen : FileTree) : IO Unit := do
  IO.sleep (watcher.debounce.nanoseconds.toNat / Duration.millisecond).toUInt32
  let tree ← gatherHere
  let changed := (tree.files.filter fun file => !seen.files.contains file).map (·.1) ++
    (seen.files.map (·.1)).filter fun path => !tree.files.any (·.1 = path)
  let watcher := (changed.filter watcher.relevant).foldl Watcher.schedule watcher
  let (watcher, after, notes) := watcher.flush tree
  let out ← IO.getStdout
  for line in Session.visible level notes do printLine out line.text
  writeChanges tree after
  watchOn watcher level after

/-- Run the program on its arguments. -/
def runProgram (arguments : List String) : IO UInt32 := do
  let tree ← gatherHere
  let outcome := runCommand (← gatherEnvironment) tree (arguments.map Text.ofString)
  writeChanges tree outcome.tree
  let out ← IO.getStdout
  for line in outcome.stdout do printLine out line.text
  let errors ← IO.getStderr
  for line in outcome.stderr do printLine errors line
  match outcome.watcher with
  | some (watcher, level) => watchOn watcher level outcome.tree
  | none => pure ()
  return outcome.exit.toUInt32

end HeaderReflection

/-- Run the program. -/
def main (arguments : List String) : IO UInt32 := HeaderReflection.runProgram arguments
