import Storyline.Number.Spelled
import Storyline.Settings.File
import Storyline.Text.Uppercase

/-!
# Settings

What the environment says about how the program runs: whether stories with errors are rejected, what
is logged, and where requests are served.

## Main definitions

* `Settings`, `Settings.ofEnvironment`: the settings, and how they are read
* `LogLevel.ofName?`: the levels of a log by their names
-/

namespace Storyline

/-- How the program runs. -/
structure Settings where
  strict : Bool := false
  logLevel : String := "INFO"
  host : String := "127.0.0.1"
  port : Int := 8000
  deriving Repr, DecidableEq

/-- Why settings cannot be read. -/
inductive SettingsFault where
  | badPort (text : String)
  | number (f : NumberFault)
  | unknownLevel (name : String)
  deriving Repr, DecidableEq

/-- The words of a fault. -/
def SettingsFault.message : SettingsFault → String
  | .badPort text => Number.notSpelledMessage 10 text
  | .number f => f.message
  | .unknownLevel name => "Unknown level: " ++ Text.quotedString name

namespace Settings

/-- The words that turn a switch on. -/
def onWords : List String :=
  ["1", "true", "yes", "on"]

/-- Whether a text turns a switch on. -/
def isOn (text : String) : Bool :=
  onWords.contains (Text.lowercaseAscii (Text.trimmed text))

/-- The port that a text spells. -/
def readPort (text : String) : Except SettingsFault Int :=
  match Number.spelledInt 10 text.toList with
  | .ok (some n) => .ok n
  | .ok none => .error (.badPort text)
  | .error f => .error (.number f)

/-- The settings in an environment; values that are empty do not count, except for a switch. -/
def ofEnvironment (env : Mapping String) : Except SettingsFault Settings := do
  let given (name : String) := (env.get? name).filter fun v => !v.isEmpty
  let defaults : Settings := {}
  let port ← match given "PORT" with
    | some text => readPort text
    | none => pure defaults.port
  return {
    strict := (env.get? "GAMEBOOK_STRICT").any isOn
    logLevel := ((given "LOG_LEVEL").map fun l => Text.uppercase (Text.trimmed l)).getD
      defaults.logLevel
    host := (given "HOST").getD defaults.host
    port := port }

end Settings

/-! ## Log levels -/

/-- The levels of a log, by name, and how severe they are. -/
def logLevels : List (String × Nat) :=
  [("CRITICAL", 50), ("FATAL", 50), ("ERROR", 40), ("WARN", 30), ("WARNING", 30), ("INFO", 20),
    ("DEBUG", 10), ("NOTSET", 0)]

/-- How severe a warning is. -/
def warningLevel : Nat :=
  30

/-- Whether warnings are logged at a level. -/
def logsWarnings (level : String) : Except SettingsFault Bool :=
  match logLevels.lookup level with
  | some n => .ok (n ≤ warningLevel)
  | none => .error (.unknownLevel level)

end Storyline
