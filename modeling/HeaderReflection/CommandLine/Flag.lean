import HeaderReflection.CommandLine.CommaList
import HeaderReflection.Duration
import HeaderReflection.Text.Quoted

/-!
# Flags

Arguments that start with a dash give values to flags: `--name value`, `--name=value`, `-n value`, `-nvalue` and
`-n=value`. Two dashes alone end the flags; all other arguments are kept in their order.

## Main definitions

- `Flag`: the flags of the program.
- `Arguments`: the values that flags have been given, and the other arguments.
- `FlagFault`: what can be wrong with a flag.
- `Arguments.parse`: reading a list of arguments.
-/

namespace HeaderReflection

open Text (byte)

/-- The flags of the program. -/
inductive Flag where
  | packageName
  | scope
  | source
  | output
  | configList
  | exclude
  | manifest
  | debounce
  | level
  | config
  | help
  deriving DecidableEq, Repr, Inhabited

namespace Flag

/-- The name of a flag. -/
def name : Flag → Text
  | .packageName => "package-name"
  | .scope => "namespace"
  | .source => "source"
  | .output => "output"
  | .configList => "config-list"
  | .exclude => "exclude"
  | .manifest => "manifest"
  | .debounce => "debounce"
  | .level => "level"
  | .config => "config"
  | .help => "help"

/-- The letter of a flag, if it has one. -/
def letter? : Flag → Option UInt8
  | .source => some (byte 's')
  | .output => some (byte 'o')
  | .configList => some (byte 'c')
  | .exclude => some (byte 'x')
  | .level => some (byte 'l')
  | .help => some (byte 'h')
  | _ => none

/-- The value of a flag that is given without one. -/
def bareValue? : Flag → Option Text
  | .help => some "true"
  | _ => none

/-- A flag as it is told to the user. -/
def display (flag : Flag) : Text :=
  match flag.letter? with
  | some letter => "-" ++ [letter] ++ ", --" ++ flag.name
  | none => "--" ++ flag.name

/-- The flags that every command has. -/
def common : List Flag := [.level, .config, .help]

/-- The flags that tell a run its options. -/
def ofOptions : List Flag := [.packageName, .scope, .source, .output, .configList, .exclude, .manifest]

end Flag

/-- What can be wrong with a flag. -/
inductive FlagFault where
  /-- An argument with two dashes and no name. -/
  | badSyntax (argument : Text)
  | unknownName (name : Text)
  /-- An unknown letter in a group of letters. -/
  | unknownLetter (letter : UInt8) (group : Text)
  /-- No value behind a name. -/
  | noValue (argument : Text)
  /-- No value behind a letter. -/
  | noLetterValue (letter : UInt8) (group : Text)
  /-- A value that the flag cannot have, and why. -/
  | badValue (value : Text) (flag : Flag) (reason : Text)
  deriving DecidableEq, Repr, Inhabited

/-- A byte as a character in single quotes. -/
def quotedLetter (b : UInt8) : Text :=
  let c := b.toNat
  let inside : Text :=
    if c = 39 then [byte '\\', 39] else if c = 34 then [34] else Text.quotedCodePoint c (Text.ofCodePoint c)
  [39] ++ inside ++ [39]

/-- The wording of a fault. -/
def FlagFault.message : FlagFault → Text
  | .badSyntax argument => "bad flag syntax: " ++ argument
  | .unknownName name => "unknown flag: --" ++ name
  | .unknownLetter letter group => "unknown shorthand flag: " ++ quotedLetter letter ++ " in -" ++ group
  | .noValue argument => "flag needs an argument: " ++ argument
  | .noLetterValue letter group => "flag needs an argument: " ++ quotedLetter letter ++ " in -" ++ group
  | .badValue value flag reason =>
    "invalid argument " ++ Text.quoted value ++ " for " ++ Text.quoted flag.display ++ " flag: " ++ reason

/-! ## §1 Values -/

/-- What flags have been given, and the other arguments. -/
structure Arguments where
  packageName : Option Text := none
  scope : Option Text := none
  source : Option Text := none
  output : Option Text := none
  configList : Option Text := none
  exclude : Option (List Text) := none
  manifest : Option Text := none
  debounce : Option Duration := none
  level : Option Text := none
  /-- The config files, in their order. -/
  configs : List Text := []
  help : Bool := false
  /-- The arguments that belong to no flag. -/
  others : List Text := []
  deriving DecidableEq, Repr, Inhabited

/-- The spellings of a truth value. -/
def truth? (text : Text) : Option Bool :=
  let yes : List Text := ["1", "t", "T", "true", "TRUE", "True"]
  let no : List Text := ["0", "f", "F", "false", "FALSE", "False"]
  if yes.contains text then some true else if no.contains text then some false else none

namespace Arguments

/-- The items that a list flag is given. -/
def listValue (flag : Flag) (value : Text) : Except FlagFault (List Text) :=
  (CommaList.parse value).mapError fun fault => .badValue value flag fault.message

/-- Give a flag a value. A flag that takes a list gathers what it is given, for all others the last value counts. -/
def give (a : Arguments) (flag : Flag) (value : Text) : Except FlagFault Arguments :=
  match flag with
  | .packageName => .ok { a with packageName := some value }
  | .scope => .ok { a with scope := some value }
  | .source => .ok { a with source := some value }
  | .output => .ok { a with output := some value }
  | .configList => .ok { a with configList := some value }
  | .manifest => .ok { a with manifest := some value }
  | .level => .ok { a with level := some value }
  | .exclude => (listValue flag value).map fun items => { a with exclude := some (a.exclude.getD [] ++ items) }
  | .config => (listValue flag value).map fun items => { a with configs := a.configs ++ items }
  | .debounce =>
    match Duration.parse value with
    | .ok debounce => .ok { a with debounce := some debounce }
    | .error fault => .error (.badValue value flag fault.message)
  | .help =>
    match truth? value with
    | some help => .ok { a with help }
    | none =>
      .error (.badValue value flag ("strconv.ParseBool: parsing " ++ Text.quoted value ++ ": invalid syntax"))

/-! ## §2 Reading -/

/-- Read an argument `--name` or `--name=value`. The value may be the next argument. -/
def readLong (flags : List Flag) (a : Arguments) (argument : Text) (rest : List Text) :
    Except FlagFault (Arguments × List Text) :=
  let body := argument.drop 2
  if body.head? = some (byte '-') ∨ body.head? = some (byte '=') then .error (.badSyntax argument)
  else
    let name := body.takeWhile (· ≠ byte '=')
    match flags.find? (·.name = name) with
    | none => .error (.unknownName name)
    | some flag =>
      match body.dropWhile (· ≠ byte '='), flag.bareValue?, rest with
      | _ :: value, _, _ => (a.give flag value).map (·, rest)
      | [], some value, _ => (a.give flag value).map (·, rest)
      | [], none, value :: rest => (a.give flag value).map (·, rest)
      | [], none, [] => .error (.noValue argument)

/-- Read a group of letters behind one dash. The first letter whose flag takes a value takes the rest of the group, or
the next argument if nothing is left of it. -/
def readShort (flags : List Flag) (a : Arguments) (rest : List Text) : Text → Except FlagFault (Arguments × List Text)
  | [] => .ok (a, rest)
  | letter :: group =>
    if Text.beginsWith "test." (letter :: group) then .ok (a, rest)
    else match flags.find? (·.letter? = some letter) with
      | none => .error (.unknownLetter letter (letter :: group))
      | some flag =>
        match group with
        | b :: c :: value =>
          if b = byte '=' then (a.give flag (c :: value)).map (·, rest)
          else match flag.bareValue? with
            | some bare => (a.give flag bare).bind fun a => readShort flags a rest (b :: c :: value)
            | none => (a.give flag group).map (·, rest)
        | [b] =>
          match flag.bareValue? with
          | some bare => (a.give flag bare).bind fun a => readShort flags a rest [b]
          | none => (a.give flag group).map (·, rest)
        | [] =>
          match flag.bareValue?, rest with
          | some bare, _ => (a.give flag bare).map (·, rest)
          | none, value :: rest => (a.give flag value).map (·, rest)
          | none, [] => .error (.noLetterValue letter [letter])

/-- Read arguments one after the other. -/
def readAll (flags : List Flag) : Nat → Arguments → List Text → Except FlagFault Arguments
  | _, a, [] => .ok a
  | 0, a, _ :: _ => .ok a
  | fuel + 1, a, argument :: rest =>
    match argument with
    | b :: c :: group =>
      if b ≠ byte '-' then readAll flags fuel { a with others := a.others ++ [argument] } rest
      else if c = byte '-' then
        if group = [] then .ok { a with others := a.others ++ rest }
        else (readLong flags a argument rest).bind fun (a, rest) => readAll flags fuel a rest
      else (readShort flags a rest (c :: group)).bind fun (a, rest) => readAll flags fuel a rest
    | _ => readAll flags fuel { a with others := a.others ++ [argument] } rest

/-- Read a list of arguments for a command with the given flags. -/
def parse (flags : List Flag) (arguments : List Text) : Except FlagFault Arguments :=
  readAll flags arguments.length {} arguments

end Arguments

end HeaderReflection
