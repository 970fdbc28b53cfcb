import HeaderReflection.CommandLine.Flag
import HeaderReflection.Text.Case

/-!
# Commands

The first argument that is neither a flag nor the value of a flag names the command. An unknown name is answered with
the names that are near to it.

## Main definitions

- `Command`: what the program can be told to do.
- `Invocation`, `Invocation.parse`: a command with its arguments.
- `UsageFault`: what can be wrong with an invocation.
- `editDistance`, `suggestions`: names near to an unknown one.
-/

namespace HeaderReflection

open Text (byte)

/-- What the program can be told to do. -/
inductive Command where
  | check
  | generate
  | watch
  /-- Scripts for shells, which are not part of this library. -/
  | completion
  /-- A text on how to use the program. -/
  | help
  deriving DecidableEq, Repr, Inhabited

/-- The name of the program. -/
def programName : Text := "argen"

namespace Command

/-- The name of a command. -/
def name : Command → Text
  | .check => "check"
  | .generate => "generate"
  | .watch => "watch"
  | .completion => "completion"
  | .help => "help"

/-- The commands. -/
def all : List Command := [.check, .generate, .watch, .help, .completion]

/-- The command of a name. -/
def ofName? (name : Text) : Option Command := all.find? (·.name = name)

/-- The flags of a command. -/
def flags : Command → List Flag
  | .check | .generate => Flag.ofOptions ++ Flag.common
  | .watch => Flag.ofOptions ++ [.debounce] ++ Flag.common
  | .completion | .help => Flag.common

end Command

/-! ## §1 Suggestions -/

/-- The next row of the table of edit distances: `above` is the row for one byte less, `corner` its first entry, and
`left` the entry to the left. -/
def editRow (a : UInt8) (corner left : Nat) : Text → List Nat → List Nat
  | b :: text, up :: above =>
    let here := if a = b then corner else min (min up left) corner + 1
    here :: editRow a up here text above
  | _, _ => []

/-- The rows of the table of edit distances, of which the last is kept. -/
def editRows (target : Text) : Nat → List Nat → Text → List Nat
  | _, row, [] => row
  | n, row, a :: text =>
    editRows target (n + 1) ((n + 1) :: editRow a (row.headD 0) (n + 1) target (row.drop 1)) text

/-- The least number of bytes to insert, delete or replace to get from one text to another. -/
def editDistance (source target : Text) : Nat :=
  (editRows target 0 (List.range (target.length + 1)) source).getLastD 0

/-- Whether a command may be meant by a name: two edits away at most, or begun by the name. -/
def Command.isNear (name : Text) (command : Command) : Bool :=
  command ≠ .help &&
    (editDistance (Text.lowered name) command.name ≤ 2 || Text.beginsWith (Text.lowered name) command.name)

/-- The names of the commands that may be meant by a name. -/
def suggestions (name : Text) : List Text := (Command.all.filter (Command.isNear name)).map Command.name

/-! ## §2 Finding the command -/

/-- Whether an argument is a flag whose value is the next argument. Unknown flags count as such. -/
def takesNext (flags : List Flag) (argument : Text) : Bool :=
  !argument.contains (byte '=') &&
    match argument with
    | a :: b :: rest =>
      a = byte '-' &&
        if b = byte '-' then !(flags.any fun flag => flag.name = rest && flag.bareValue?.isSome)
        else rest = [] && !(flags.any fun flag => flag.letter? = some b && flag.bareValue?.isSome)
    | _ => false

/-- The flags that are known while the command is not: help is not among them. -/
def earlyFlags : List Flag := [.level, .config]

/-- The arguments that are neither flags nor values of flags. A flag in front of the last argument ends the search. -/
def plainArguments (flags : List Flag) : List Text → List Text
  | [] => []
  | argument :: rest =>
    if argument = ("--" : Text) then []
    else if takesNext flags argument then
      match rest with
      | _ :: next :: rest => plainArguments flags (next :: rest)
      | _ => []
    else if argument ≠ [] ∧ argument.head? ≠ some (byte '-') then argument :: plainArguments flags rest
    else plainArguments flags rest

/-- The arguments without the first one that is the given name and no value of a flag. -/
def withoutName (flags : List Flag) (name : Text) : List Text → List Text
  | [] => []
  | argument :: rest =>
    if argument = ("--" : Text) then argument :: rest
    else if takesNext flags argument then
      match rest with
      | value :: rest => argument :: value :: withoutName flags name rest
      | [] => [argument]
    else if argument = name then rest
    else argument :: withoutName flags name rest

/-! ## §3 Invocations -/

/-- What can be wrong with an invocation. -/
inductive UsageFault where
  /-- A name that is no command. -/
  | unknownCommand (name : Text)
  /-- Something wrong with a flag. -/
  | flag (fault : FlagFault)
  deriving DecidableEq, Repr, Inhabited

/-- A suggestion on a line of its own. -/
def suggestionLine (name : Text) : Text := "\t" ++ name ++ "\n"

/-- The suggestions for an unknown name, as they are told to the user. -/
def suggestionText (name : Text) : Text :=
  match suggestions name with
  | [] => []
  | names => "\n\nDid you mean this?\n" ++ (names.flatMap suggestionLine : Text)

/-- An argument that no command takes, as it is told to the user. -/
def unknownCommandMessage (name path : Text) : Text :=
  "unknown command " ++ Text.quoted name ++ " for " ++ Text.quoted path

/-- The wording of a fault. -/
def UsageFault.message : UsageFault → Text
  | .unknownCommand name => unknownCommandMessage name programName ++ suggestionText name
  | .flag fault => fault.message

/-- A command with its arguments. Without a command the program only tells how to use it. -/
structure Invocation where
  command : Option Command
  arguments : Arguments
  deriving DecidableEq, Repr, Inhabited

/-- The arguments of a command. -/
def Invocation.ofCommand (command : Option Command) (arguments : List Text) : Except UsageFault Invocation :=
  let flags := (command.map Command.flags).getD Flag.common
  match Arguments.parse flags arguments with
  | .ok arguments => .ok { command, arguments }
  | .error fault => .error (.flag fault)

/-- Find the command among arguments and read what belongs to it. -/
def Invocation.parse (arguments : List Text) : Except UsageFault Invocation :=
  match plainArguments earlyFlags arguments with
  | [] => ofCommand none arguments
  | name :: _ =>
    match Command.ofName? name with
    | none => .error (.unknownCommand name)
    | some command => ofCommand (some command) (withoutName earlyFlags name arguments)

end HeaderReflection
