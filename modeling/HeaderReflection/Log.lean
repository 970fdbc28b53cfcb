import HeaderReflection.Text.Basic

/-!
# Log records

What a run reports as it goes: a level, a message and attributes in order. A run that may fail carries the records it
has made so far along with its outcome.

## Main definitions

- `LogLevel`, `LogRecord`, `LogValue`: a record.
- `LogRecord.within`: the attributes of a surrounding context in front of a record's own.
- `Logged`: an outcome with the records made on the way.
-/

namespace HeaderReflection

/-- The weight of a record: higher is more important. -/
abbrev LogLevel := Int

namespace LogLevel

/-- Everything, also what is seldom of interest. -/
def trace : LogLevel := -8

/-- Details that help to find a fault. -/
def debug : LogLevel := -4

/-- The course of a run. -/
def info : LogLevel := 0

/-- Something that should be looked at. -/
def warn : LogLevel := 4

/-- Something that went wrong. -/
def error : LogLevel := 8

/-- A distance from a named level; none at all is left out. -/
def offset (base : Text) (distance : Int) : Text :=
  if distance = 0 then base
  else if 0 < distance then base ++ "+" ++ Text.decimalInt distance
  else base ++ Text.decimalInt distance

/-- The name of a level: the nearest named level that is not above it (the lowest one for what is below all), with the
distance from it. -/
def name (level : LogLevel) : Text :=
  if level < info then offset "DEBUG" (level - debug)
  else if level < warn then offset "INFO" (level - info)
  else if level < error then offset "WARN" (level - warn)
  else offset "ERROR" (level - error)

end LogLevel

/-- The value of an attribute. -/
inductive LogValue where
  | text (value : Text)
  | number (value : Int)
  | texts (values : List Text)
  deriving DecidableEq, Repr, Inhabited

/-- A record of a run. -/
structure LogRecord where
  level : LogLevel
  message : String
  attributes : List (String × LogValue)
  deriving DecidableEq, Repr, Inhabited

/-- The record with the attributes of a surrounding context in front of its own. -/
def LogRecord.within (context : List (String × LogValue)) (record : LogRecord) : LogRecord :=
  { record with attributes := context ++ record.attributes }

/-- An outcome with the records that were made on the way to it. -/
structure Logged (ε : Type) (α : Type) where
  log : List LogRecord
  outcome : Except ε α
  deriving Repr

namespace Logged

/-- An outcome without a record. -/
def ofExcept (outcome : Except ε α) : Logged ε α := { log := [], outcome }

/-- A record. -/
def note (record : LogRecord) : Logged ε Unit := { log := [record], outcome := .ok () }

/-- Some records. -/
def notes (records : List LogRecord) : Logged ε Unit := { log := records, outcome := .ok () }

/-- Continue with a value; a failure ends the run and keeps the records made so far. -/
def bind (run : Logged ε α) (next : α → Logged ε β) : Logged ε β :=
  match run.outcome with
  | .error e => { log := run.log, outcome := .error e }
  | .ok a => { log := run.log ++ (next a).log, outcome := (next a).outcome }

instance : Monad (Logged ε) where
  pure a := ofExcept (.ok a)
  bind := bind

/-- Fail. -/
def fail (e : ε) : Logged ε α := ofExcept (.error e)

/-- The run inside a context: the context's attributes stand in front of those of every record. -/
def within (context : List (String × LogValue)) (run : Logged ε α) : Logged ε α :=
  { run with log := run.log.map (LogRecord.within context) }

/-- The run with another kind of failure. -/
def mapError (f : ε → ε') (run : Logged ε α) : Logged ε' α :=
  { log := run.log, outcome := run.outcome.mapError f }

end Logged

end HeaderReflection
