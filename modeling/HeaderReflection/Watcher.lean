import HeaderReflection.Duration
import HeaderReflection.Generation

/-!
# Watching

A watcher generates a module again whenever its config list or one of its headers changes. Changes are gathered for a
while; then all that is pending is taken at once and one rebuild answers it. Before a rebuild the list of watched files
is brought up to date, since the config list may name other headers.

## Main definitions

- `Watcher`: what is watched and what is pending.
- `Watcher.refresh`, `Watcher.relevant`: the watched files.
- `Watcher.schedule`, `Watcher.take`: the pending changes.
- `Watcher.rebuild`, `Watcher.flush`, `Watcher.start`: generating.
-/

namespace HeaderReflection

/-- What is watched and what is pending. -/
structure Watcher where
  options : RunOptions
  /-- How long changes are gathered. -/
  debounce : Duration
  /-- The watched files, in normal form. -/
  watched : List Text := []
  /-- The directories that are listened to. -/
  dirs : List Text := []
  /-- The changed files that no rebuild has answered yet, in strictly increasing byte order. -/
  pending : List Text := []
  deriving Repr

namespace Watcher

/-- How long changes are gathered if nothing else is said. -/
def usualDebounce : Duration := Duration.ofMilliseconds 300

/-- A watcher that has not started yet. -/
def ofOptions (o : Options) (debounce : Duration) : Except OptionsError Watcher :=
  o.normalize.map fun options =>
    { options, debounce := if debounce.nanoseconds ≤ 0 then usualDebounce else debounce }

/-- What stands in front of the attributes of all records of a watcher. -/
def logContext (w : Watcher) : List (String × LogValue) := [("module", .text w.options.packageName)]

/-! ## §1 Watched files -/

/-- The files that the module is generated from. -/
def inputFiles (o : RunOptions) (headers : List Text) : List Text :=
  cleanPath o.configList :: headers.map fun header => cleanPath (o.headerFile header)

/-- The record of a directory that cannot be listened to. -/
def unwatchableNote (dir : Text) (reason : FileReason) : LogRecord where
  level := .warn
  message := "failed to watch directory"
  attributes := [("path", .text dir), ("error", .text reason.message)]

/-- Listen to the directories of files, and tell which cannot be listened to. A directory that is listened to already is
left as it is. -/
def listen (tree : FileTree) : List Text → List Text → List Text × List LogRecord
  | dirs, [] => (dirs, [])
  | dirs, file :: files =>
    let dir := parentDir file
    if dirs.contains dir then listen tree dirs files
    else match tree.lookup dir with
      | .ok _ => listen tree (dirs ++ [dir]) files
      | .error reason =>
        let (dirs, notes) := listen tree dirs files
        (dirs, unwatchableNote dir reason :: notes)

/-- Bring the list of watched files up to date. If the config list cannot be read the watcher stays as it is. -/
def refresh (w : Watcher) (tree : FileTree) : Logged HeaderListError Watcher := do
  let headers ← Logged.ofExcept (w.options.headers tree)
  let watched := inputFiles w.options headers
  let (dirs, notes) := listen tree w.dirs watched
  Logged.notes (notes.map (LogRecord.within w.logContext))
  return { w with watched := Text.dedup watched, dirs }

/-- Whether a change of a file matters. -/
def relevant (w : Watcher) (path : Text) : Bool := w.watched.contains (cleanPath path)

/-! ## §2 Pending changes -/

/-- Note that a file has changed. -/
def schedule (w : Watcher) (path : Text) : Watcher := { w with pending := Text.insertUnique path w.pending }

/-- Take all that is pending. -/
def take (w : Watcher) : List Text × Watcher := (w.pending, { w with pending := [] })

/-! ## §3 Generating -/

/-- The record of changes that a rebuild answers. -/
def changeNotes (changed : List Text) : List LogRecord :=
  if changed = [] then []
  else [{ level := .info, message := "Change detected", attributes := [("files", .texts changed)] }]

/-- The record of a list of watched files that could not be brought up to date. -/
def staleListNote (error : HeaderListError) : LogRecord where
  level := .warn
  message := "Unable to refresh watch list"
  attributes := [("error", .text error.message)]

/-- The record of a generation that failed. -/
def failedNote (error : RunError) : LogRecord where
  level := .error
  message := "Generation failed"
  attributes := [("error", .text error.message)]

/-- The records of a generation, with a last one if it failed. -/
def generationNotes (run : Logged RunError α) : List LogRecord :=
  match run.outcome with
  | .ok _ => run.log
  | .error error => run.log ++ [failedNote error]

/-- Bring the list of watched files up to date and generate. Failures are only told. -/
def rebuild (w : Watcher) (tree : FileTree) (changed : List Text) : Watcher × FileTree × List LogRecord :=
  let refreshed := w.refresh tree
  let (next, refreshNotes) := match refreshed.outcome with
    | .ok next => (next, refreshed.log)
    | .error error => (w, refreshed.log ++ [(staleListNote error).within w.logContext])
  let (tree, run) := w.options.generate tree
  (next, tree,
    (changeNotes changed).map (LogRecord.within w.logContext) ++ refreshNotes ++
      (generationNotes run).map (LogRecord.within w.logContext))

/-- Answer what is pending, if anything is. -/
def flush (w : Watcher) (tree : FileTree) : Watcher × FileTree × List LogRecord :=
  let (changed, w) := w.take
  if changed = [] then (w, tree, []) else w.rebuild tree changed

/-- The record of a watcher that has started. -/
def startNote (w : Watcher) : LogRecord where
  level := .info
  message := "Watching headers"
  attributes := [("files", .number w.watched.length), ("debounce", .text w.debounce.render)]

/-- Generate once and start to watch. -/
def start (w : Watcher) (tree : FileTree) : Watcher × FileTree × List LogRecord :=
  let (w, tree, notes) := w.rebuild tree []
  (w, tree, notes ++ [w.startNote.within w.logContext])

end Watcher

end HeaderReflection
