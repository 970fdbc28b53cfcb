import HeaderReflection.CommandLine.Command
import HeaderReflection.CommandLine.Config

/-!
# Running a command

What the program does with its arguments: which files it writes, what it prints, and with which code it ends. Records
are printed when their level is high enough; the level is given by a flag, or else by the config files.

## Main definitions

- `OutputLine`, `CommandOutcome`: what a command does.
- `Session`: a command that is being run.
- `runCommand`: from arguments, environment and files to the outcome.
-/

namespace HeaderReflection

/-- What is printed on one line. -/
inductive OutputLine where
  | record (record : LogRecord)
  | line (text : Text)
  deriving DecidableEq, Repr, Inhabited

/-- What a command does. -/
structure CommandOutcome where
  /-- The code with which the program ends. -/
  exit : Nat := 0
  /-- What is printed. -/
  stdout : List OutputLine := []
  /-- What is printed as an error, line by line. -/
  stderr : List Text := []
  /-- The files afterwards. -/
  tree : FileTree
  /-- The watcher that has been started, and the level of its records. -/
  watcher : Option (Watcher × LogLevel) := none

/-- The lines of a text. -/
def messageLines (text : Text) : List Text := Text.splitOn Text.lineFeed text

/-- The lines that tell an error. -/
def errorLines (message : Text) : List Text := messageLines ("Error: " ++ message)

/-! ## §1 Sessions -/

/-- A command that is being run: what has been printed so far, and from which level on records are printed. -/
structure Session where
  tree : FileTree
  level : LogLevel
  printed : List OutputLine := []

namespace Session

/-- The records that are printed from a level on. -/
def visible (level : LogLevel) (records : List LogRecord) : List OutputLine :=
  (records.filter (level ≤ ·.level)).map .record

/-- Print records. -/
def report (s : Session) (records : List LogRecord) : Session :=
  { s with printed := s.printed ++ visible s.level records }

/-- Print texts. -/
def print (s : Session) (texts : List Text) : Session :=
  { s with printed := s.printed ++ (texts.flatMap messageLines).map .line }

/-- End well. -/
def finish (s : Session) : CommandOutcome := { stdout := s.printed, tree := s.tree }

/-- End with an error. -/
def fail (s : Session) (message : Text) : CommandOutcome :=
  { exit := 1, stdout := s.printed, stderr := errorLines message, tree := s.tree }

/-- End at once, because a level cannot be understood. -/
def abort (s : Session) (fault : UnknownLevel) : CommandOutcome :=
  { exit := 2, stdout := s.printed, stderr := ["panic: " ++ fault.message], tree := s.tree }

/-! ## §2 Commands -/

/-- A change as a command prints it. -/
def changeLine (c : Change) : Text := Text.padRight 6 c.kind.name ++ " " ++ c.path

/-- Generate a module, and print what has changed. -/
def generate (s : Session) (o : Options) : CommandOutcome :=
  let (tree, run) := o.generate s.tree
  let s := { s with tree }.report run.log
  match run.outcome with
  | .error error => s.fail error.message
  | .ok changes => (s.print (changes.map changeLine)).finish

/-- Check a module, and print what would change. Something that would change is no error that is told in words. -/
def check (s : Session) (o : Options) : CommandOutcome :=
  let run := o.check s.tree
  let s := s.report run.log
  match run.outcome with
  | .error error => s.fail error.message
  | .ok report =>
    let outcome := (s.print report.headings).finish
    if report.isClean then outcome else { outcome with exit := 1 }

/-- Generate a module and start to watch it. -/
def watch (s : Session) (o : Options) (debounce : Duration) : CommandOutcome :=
  match Watcher.ofOptions o debounce with
  | .error error => s.fail error.message
  | .ok watcher =>
    let (watcher, tree, notes) := watcher.start s.tree
    { ({ s with tree }.report notes).finish with watcher := some (watcher, s.level) }

/-- Run a command that takes no arguments besides its flags. -/
def run (s : Session) (config : Config) (command : Command) (a : Arguments) : CommandOutcome :=
  match a.others with
  | other :: _ => s.fail (unknownCommandMessage other (programName ++ " " ++ command.name))
  | [] =>
    match config.options a with
    | .error fault => s.fail fault.message
    | .ok o =>
      match command with
      | .generate => s.generate o
      | .check => s.check o
      | .watch => s.watch o (config.debounce a)
      | .completion | .help => s.finish

/-- Read the config files, and run a command with the level that they set unless a flag has set one. -/
def configured (s : Session) (env : Environment) (command : Command) (a : Arguments) : CommandOutcome :=
  let (config, notes) := Config.load env s.tree a.configs
  let s := s.report notes
  if a.level.isSome ∨ config.levelName = [] then s.run config command a
  else match LogLevel.parse config.levelName with
    | .error fault => s.abort fault
    | .ok level => { s with level }.run config command a

end Session

/-! ## §3 Invocations -/

/-- The level of records if nothing else is said. -/
def usualLevel : Text := "info"

/-- The outcome of an invocation that is not understood. -/
def UsageFault.outcome (fault : UsageFault) (tree : FileTree) : CommandOutcome :=
  let advice : List Text := match fault with
    | .unknownCommand _ => ["Run '" ++ programName ++ " --help' for usage."]
    | .flag _ => []
  { exit := 1, stderr := errorLines fault.message ++ advice, tree }

/-- Run an invocation. Help is not printed here. -/
def Invocation.run (i : Invocation) (env : Environment) (tree : FileTree) : CommandOutcome :=
  match i.command with
  | none | some .completion | some .help => { tree }
  | some command =>
    if i.arguments.help then { tree }
    else
      let session : Session := { tree, level := .info }
      match LogLevel.parse (i.arguments.level.getD usualLevel) with
      | .error fault => session.abort fault
      | .ok level => { session with level }.configured env command i.arguments

/-- Run the program with its arguments. -/
def runCommand (env : Environment) (tree : FileTree) (arguments : List Text) : CommandOutcome :=
  match Invocation.parse arguments with
  | .error fault => fault.outcome tree
  | .ok invocation => invocation.run env tree

end HeaderReflection
