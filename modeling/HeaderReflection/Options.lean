import HeaderReflection.FileTree
import HeaderReflection.Layout
import HeaderReflection.PathPattern
import HeaderReflection.Text.Blank
import HeaderReflection.Text.Quoted

/-!
# Options

What a run is told: the module, where its headers are and where its files go. A config list names the headers of the
module, one on a line; patterns leave some of them out.

## Main definitions

- `Options`, `RunOptions`: options as given, and after they have been checked and put into normal form.
- `Options.normalize`: from the one to the other.
- `RunOptions.excluded`: whether a pattern leaves a header out.
- `RunOptions.headers`: the headers that the config list names.
-/

namespace HeaderReflection

/-- The options of a run as they are given. -/
structure Options where
  /-- The module that is generated. -/
  packageName : Text := []
  /-- The namespace around the module, empty if there is none. -/
  scope : Text := []
  /-- The directory that the names in the config list are relative to. -/
  source : Text := "."
  /-- The directory that the generated files go to. -/
  output : Text := "."
  /-- The file that lists the headers. -/
  configList : Text := []
  /-- The patterns of headers that are left out. -/
  exclude : List Text := []
  /-- The file that records what has been generated; empty for the usual one. -/
  manifest : Text := []
  deriving DecidableEq, Repr, Inhabited

/-- Options in normal form, with their patterns read. -/
structure RunOptions extends Options where
  patterns : List PathPattern
  deriving Repr, Inhabited

/-- What can be wrong with options. -/
inductive OptionsError where
  | missingPackageName
  | missingConfigList
  | invalidExclude (pattern : Text)
  deriving DecidableEq, Repr, Inhabited

/-- The wording of a fault in options. -/
def OptionsError.message : OptionsError → Text
  | .missingPackageName => "package name is required"
  | .missingConfigList => "config list is required"
  | .invalidExclude pattern => "invalid exclude pattern " ++ Text.quoted pattern

/-! ## §1 Normal form -/

namespace Options

/-- Options that also leave out what some patterns say; blanks around a pattern do not count. -/
def withExclude (o : Options) (patterns : List Text) : Options :=
  { o with exclude := o.exclude ++ patterns.map Text.trim }

/-- Where the files of the module go. -/
def layout (o : Options) : Layout := { root := o.output, module := o.packageName }

/-- The usual place of the manifest. -/
def usualManifest (o : Options) : Text := joinPath [o.layout.packageDir, "argen.manifest.yaml"]

/-- Options with their names trimmed and their paths in normal form. -/
def tidied (o : Options) : Options :=
  let o := { o with
    packageName := o.packageName.trim
    scope := o.scope.trim
    source := cleanPath o.source
    output := cleanPath o.output
    configList := cleanPath o.configList }
  { o with manifest := if o.manifest = [] then o.usualManifest else o.manifest }

/-- The patterns that the exclude texts stand for. -/
def readPatterns : List Text → Except OptionsError (List PathPattern)
  | [] => .ok []
  | text :: texts =>
    match PathPattern.ofText? text with
    | none => .error (.invalidExclude text)
    | some pattern => (readPatterns texts).map (pattern :: ·)

/-- Check options and put them into normal form. -/
def normalize (o : Options) : Except OptionsError RunOptions :=
  if o.packageName.isBlank then .error .missingPackageName
  else if o.configList.isBlank then .error .missingConfigList
  else (readPatterns o.exclude).map fun patterns => { toOptions := o.tidied, patterns }

end Options

/-! ## §2 Headers -/

/-- Why the headers of a module are not known. -/
inductive HeaderListError where
  /-- The config list cannot be read. -/
  | unreadable (error : FileError)
  /-- A line of the config list is too long. -/
  | lineTooLong
  deriving DecidableEq, Repr, Inhabited

/-- The wording of a fault with the config list. -/
def HeaderListError.message : HeaderListError → Text
  | .unreadable error =>
    (if error.action = .open then "open config list: " else "read config list: ") ++ error.message
  | .lineTooLong => "read config list: bufio.Scanner: token too long"

namespace RunOptions

/-- Whether a pattern leaves a header out. -/
def excluded (o : RunOptions) (path : Text) : Bool := o.patterns.any (·.fits path)

/-- The length from which on a line of the config list is too long. -/
def lineLimit : Nat := 65536

/-- The bytes around a name that do not count. -/
def nameFrame : Text := " \t\r\n\""

/-- The header that a line of the config list names. Empty lines and comments name none. -/
def headerOfLine? (line : Text) : Option Text :=
  let name := Text.trimOf nameFrame line
  if name = [] ∨ Text.beginsWith "#" name then none else some (cleanPath name)

/-- The headers that a config list names, each once, at its first place, without those that are left out. -/
def headersOfList (o : RunOptions) (list : Text) : List Text :=
  Text.dedup (((Text.splitOn Text.lineFeed list).filterMap headerOfLine?).filter (!o.excluded ·))

/-- The headers of the module. -/
def headers (o : RunOptions) (tree : FileTree) : Except HeaderListError (List Text) :=
  match tree.read o.configList with
  | .error error => .error (.unreadable error)
  | .ok list =>
    if (Text.splitOn Text.lineFeed list).any (lineLimit ≤ ·.length) then .error .lineTooLong
    else .ok (o.headersOfList list)

/-- The file of a header. -/
def headerFile (o : RunOptions) (header : Text) : Text := joinPath [o.source, header]

end RunOptions

end HeaderReflection
