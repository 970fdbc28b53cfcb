import HeaderReflection.CommandLine.Flag
import HeaderReflection.Log.LevelName
import HeaderReflection.Options
import HeaderReflection.Settings.Dotenv
import HeaderReflection.Settings.Json
import HeaderReflection.Settings.Toml
import HeaderReflection.Settings.Yaml
import HeaderReflection.Watcher

/-!
# Where options come from

An option is taken from the first place that has it: a flag, a variable of the environment, the config files, and last
its usual value. Config files are found by their name in the current directory, or are named by a flag; a later file
overrides an earlier one.

## Main definitions

- `Environment`: the variables and the current directory.
- `ConfigFormat`, `decodeConfig`: the formats of config files.
- `Config`, `Config.load`: the settings of all config files, with the records made on the way.
- `Config.options`, `Config.debounce`, `Config.levelName`: what a command asks for.
-/

namespace HeaderReflection

open Text (byte)

/-- What surrounds a run. -/
structure Environment where
  /-- The variables with their values. -/
  values : List (Text × Text) := []
  /-- The rooted path of the current directory. -/
  directory : Text := "/"
  deriving DecidableEq, Repr, Inhabited

/-- The variable of a name. Dots and dashes in the name become underscores. -/
def variableName (name : Text) : Text :=
  "ARGEN_" ++ (Text.asciiUpper name).map fun b => if b = byte '.' ∨ b = byte '-' then byte '_' else b

/-- The value of the variable of a name; an empty value counts as none. -/
def Environment.get? (env : Environment) (name : Text) : Option Text :=
  (env.values.find? fun (key, value) => key = variableName name && value ≠ []).map (·.2)

/-! ## §1 Formats -/

/-- The format of a config file. -/
inductive ConfigFormat where
  | yaml
  | json
  | toml
  | dotenv
  deriving DecidableEq, Repr, Inhabited

/-- Why a config file gives no settings. -/
inductive ConfigFault where
  /-- There is no file of the name in the directories. -/
  | notFound (name directories : Text)
  | unreadable (error : FileError)
  /-- The ending belongs to no format. -/
  | unknownFormat (ending : Text)
  /-- The file has no ending that tells its format. -/
  | noFormat
  /-- The format is known and cannot be read. -/
  | noReader
  /-- The file is not well formed. -/
  | malformed
  deriving DecidableEq, Repr, Inhabited

/-- The wording of a fault. -/
def ConfigFault.message : ConfigFault → Text
  | .notFound name directories =>
    "Config File " ++ Text.quoted name ++ " Not Found in " ++ Text.quoted directories
  | .unreadable error => error.message
  | .unknownFormat ending => "Unsupported Config Type " ++ Text.quoted ending
  | .noFormat => "cannot decode configuration: unable to determine config type"
  | .noReader => "While parsing config: decoder not found for this format"
  | .malformed => "While parsing config: malformed document"

/-- The endings of all formats, in the order in which files are looked for. -/
def configEndings : List Text :=
  ["json", "toml", "yaml", "yml", "properties", "props", "prop", "hcl", "tfvars", "dotenv", "env", "ini"]

/-- The ending of a file name, without its dot. -/
def fileEnding (path : Text) : Text :=
  let name := (path.reverse.takeWhile (· ≠ FilePath.slash)).reverse
  (Text.afterLast? "." name).getD []

namespace ConfigFormat

/-- The format that an ending tells, in any case of its letters; some endings belong to formats that cannot be read. -/
def ofEnding? (ending : Text) : Option ConfigFormat :=
  let ending := Text.lowered ending
  if ending = ("yaml" : Text) ∨ ending = ("yml" : Text) then some .yaml
  else if ending = ("json" : Text) then some .json
  else if ending = ("toml" : Text) then some .toml
  else if ending = ("env" : Text) ∨ ending = ("dotenv" : Text) then some .dotenv
  else none

/-- The settings in a text. -/
def settings? (env : Environment) (text : Text) : ConfigFormat → Option (List (Text × Setting))
  | .yaml => Yaml.settings? text
  | .json => Json.settings? text
  | .toml => Toml.settings? text
  | .dotenv => Dotenv.settings? env.values text

end ConfigFormat

/-- The settings in the text of a config file with an ending, by names in small letters. -/
def decodeConfig (env : Environment) (ending text : Text) : Except ConfigFault (List (Text × Setting)) :=
  if ending = [] then .error .noFormat
  else match ConfigFormat.ofEnding? ending with
    | none => .error .noReader
    | some format =>
      match format.settings? env text with
      | none => .error .malformed
      | some settings => .ok (Setting.loweredPairs settings)

/-! ## §2 Files -/

/-- The settings of all config files. -/
structure Config where
  environment : Environment
  settings : List (Text × Setting) := []
  deriving Repr, Inhabited

/-- The name of a config file, without its ending. -/
def configName : Text := "argen"

/-- The names under which a config file is looked for. -/
def configNames : List Text := configEndings.map (fun ending => configName ++ "." ++ ending) ++ [configName]

/-- Whether a path leads to a file. -/
def FileTree.hasFile (tree : FileTree) (path : Text) : Bool :=
  match tree.lookup path with
  | .ok (.file _) => true
  | _ => false

/-- Where the first config file is. -/
structure ConfigSource where
  /-- The path as it is told to the user. -/
  path : Text
  /-- The ending that tells its format. -/
  ending : Text
  deriving DecidableEq, Repr, Inhabited

/-- The first config file: the first one named, or one that is found in the current directory. -/
def ConfigSource.find (env : Environment) (tree : FileTree) : List Text → Except ConfigFault ConfigSource
  | file :: _ =>
    if file = [] then .error (.notFound "config" "[]")
    else .ok { path := file, ending := fileEnding file }
  | [] =>
    match configNames.find? tree.hasFile with
    | some name => .ok { path := joinPath [env.directory, name], ending := "yaml" }
    | none => .error (.notFound configName ("[" ++ env.directory ++ "]"))

/-- A path without the current directory in front of it. -/
def Environment.localPath (env : Environment) (path : Text) : Text :=
  Text.trimPrefix (env.directory ++ "/") path

/-- The settings in a config file. Its ending is looked at before the file, and must be spelled as it is known. -/
def ConfigSource.read (source : ConfigSource) (env : Environment) (tree : FileTree) :
    Except ConfigFault (List (Text × Setting)) :=
  if !configEndings.contains source.ending then .error (.unknownFormat source.ending)
  else match tree.read (env.localPath source.path) with
    | .error error => .error (.unreadable { error with path := source.path })
    | .ok text => decodeConfig env source.ending text

/-- The record of a config file that is used. -/
def usingNote (path : Text) : LogRecord where
  level := .debug
  message := "using config file(s)"
  attributes := [("config", .text path)]

/-- The record of a config file that cannot be used. -/
def unusableNote (fault : ConfigFault) (path : Text) : LogRecord where
  level := .debug
  message := "unable to use config file(s)"
  attributes := [("error", .text fault.message), ("config", .text path)]

/-- The record of a further config file that is used. -/
def mergedNote (path : Text) : LogRecord where
  level := .debug
  message := "merged config file"
  attributes := [("file", .text path)]

/-- The record of a further config file that cannot be used. -/
def unmergedNote (fault : ConfigFault) (path : Text) : LogRecord where
  level := .warn
  message := "failed to merge config file"
  attributes := [("error", .text fault.message), ("file", .text path)]

namespace Config

/-- Settings overridden by those of further files. A file that is not there is passed over. -/
def mergeFiles (env : Environment) (tree : FileTree) (ending : Text) :
    List (Text × Setting) → List Text → List (Text × Setting) × List LogRecord
  | settings, [] => (settings, [])
  | settings, file :: files =>
    match tree.read file with
    | .error _ => mergeFiles env tree ending settings files
    | .ok text =>
      match decodeConfig env ending text with
      | .error fault =>
        let (settings, notes) := mergeFiles env tree ending settings files
        (settings, unmergedNote fault file :: notes)
      | .ok others =>
        let (settings, notes) := mergeFiles env tree ending (Setting.merge settings others) files
        (settings, mergedNote file :: notes)

/-- Read all config files. All are read in the format of the first one. -/
def load (env : Environment) (tree : FileTree) (files : List Text) : Config × List LogRecord :=
  let (settings, ending, notes) :=
    match ConfigSource.find env tree files with
    | .error fault => ([], [], [unusableNote fault []])
    | .ok source =>
      match source.read env tree with
      | .error fault => ([], source.ending, [unusableNote fault source.path])
      | .ok settings => (settings, source.ending, [usingNote source.path])
  let (settings, mergeNotes) := mergeFiles env tree ending settings (files.drop 1)
  ({ environment := env, settings }, notes ++ mergeNotes)

/-! ## §3 Values -/

/-- The value of a name: from the environment, else from the config files. -/
def get? (c : Config) (name : Text) : Option Setting :=
  match c.environment.get? name with
  | some value => some (.text value)
  | none => Setting.find? c.settings [name]

/-- An option that is a text. -/
def textOption (c : Config) (name : Text) (given : Option Text) (usual : Text) : Except (List Setting.NoText) Text :=
  match given, c.get? name with
  | some value, _ => .ok value
  | none, some value => Setting.option name value
  | none, none => .ok usual

/-- The option of patterns that leave headers out. Patterns of the command line are written as one list and read
again. -/
def excludeOption (c : Config) (given : Option (List Text)) : Except (List Setting.NoText) (List Text) :=
  match given, c.get? "exclude" with
  | some patterns, _ => .ok (CommaList.reread patterns)
  | none, some value => Setting.optionList "exclude" value
  | none, none => .ok []

/-- Values that cannot be used. -/
structure DecodeFault where
  faults : List Setting.NoText
  deriving Repr, Inhabited

/-- The wording of values that cannot be used. -/
def DecodeFault.message (e : DecodeFault) : Text :=
  "decode options: decoding failed due to the following error(s):\n\n" ++
    Text.unlines (e.faults.map Setting.NoText.message)

/-- The faults of a result. -/
def faultsOf : Except (List ε) α → List ε
  | .error faults => faults
  | .ok _ => []

/-- The options of a run. All values that cannot be used are told together. -/
def options (c : Config) (a : Arguments) : Except DecodeFault Options :=
  let packageName := c.textOption "package_name" a.packageName []
  let scope := c.textOption "namespace" a.scope []
  let source := c.textOption "source" a.source "."
  let output := c.textOption "output" a.output "."
  let configList := c.textOption "config_list" a.configList []
  let exclude := c.excludeOption a.exclude
  let manifest := c.textOption "manifest" a.manifest []
  match packageName, scope, source, output, configList, exclude, manifest with
  | .ok packageName, .ok scope, .ok source, .ok output, .ok configList, .ok exclude, .ok manifest =>
    .ok { packageName, scope, source, output, configList, exclude, manifest }
  | _, _, _, _, _, _, _ =>
    .error { faults := faultsOf packageName ++ faultsOf scope ++ faultsOf source ++ faultsOf output ++
      faultsOf configList ++ faultsOf exclude ++ faultsOf manifest }

/-- A span of time from a text. A text without any letter of a unit counts nanoseconds; one that is no span is none. -/
def spanOfText (text : Text) : Duration :=
  let hasUnit := text.any fun b => ("nsu\xb5mh" : Text).contains b
  match Duration.parse (if hasUnit then text else text ++ "ns") with
  | .ok span => span
  | .error _ => { nanoseconds := 0 }

/-- A span of time from a setting: a number counts nanoseconds, in a word of 64 bits. -/
def spanOf : Setting → Duration
  | .text value => spanOfText value
  | .integer value => { nanoseconds := Int.bmod value 18446744073709551616 }
  | .fraction value => { nanoseconds := value.toWord }
  | _ => { nanoseconds := 0 }

/-- How long a watcher gathers changes. -/
def debounce (c : Config) (a : Arguments) : Duration :=
  match a.debounce, c.get? "debounce" with
  | some span, _ => span
  | none, some value => spanOf value
  | none, none => Watcher.usualDebounce

/-- The level that is set for records, empty if none is set. A variable for a longer part of the name hides what the
config files say. -/
def levelName (c : Config) : Text :=
  match c.environment.get? "common.log.level" with
  | some name => name
  | none =>
    if (c.environment.get? "common").isSome ∨ (c.environment.get? "common.log").isSome then []
    else ((Setting.find? c.settings ["common", "log", "level"]).bind Setting.plainText?).getD []

end Config

end HeaderReflection
