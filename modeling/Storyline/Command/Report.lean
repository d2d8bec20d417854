import Storyline.Command.Arguments
import Storyline.Json.Text
import Storyline.Lint.Script
import Storyline.Script.Compile
import Storyline.Schema.Document
import Storyline.Settings

/-!
# Running a command

What the program writes and with which status it ends, given the text of the file that it works on.
Warnings go to the log, which is written before anything else that is no result.

## Main definitions

* `Report`: what a run of the program writes
* `validate`, `playable`: the commands that work on a file
* `loggedAt`: the level that the log has
-/

namespace Storyline

/-- The part of the program that notices what a warning is about. -/
def Warning.origin : Warning → String
  | .unsupportedCondition _ | .invalidAssignment _ | .invalidArithmetic _ | .undefinedValue _ =>
    "gamebook.evaluator"
  | .textAfterChoice _ _ | .textBeforeScenes _ => "gamebook.parser.blocks"
  | .duplicateScene _ _ | .narrationWithoutText _ _ | .narrationAtEnd _ => "gamebook.parser.core"
  | .missingTriggerScene _ => "gamebook.session"

namespace Command

/-- What a run of the program writes, and the status with which it ends. -/
structure Report where
  status : Nat
  output : String
  log : String
  deriving Repr, DecidableEq

/-- Why a run ends without a report. -/
inductive Fault where
  | settings (f : SettingsFault)
  | missingFile (name : String)
  /-- The path names a directory. -/
  | directory (path : String)
  /-- A value in the script means nothing. -/
  | defect (d : Yaml.Defect)
  deriving Repr, DecidableEq

/-- The words of a fault. -/
def Fault.message : Fault → String
  | .settings f => f.message
  | .missingFile name => "[Errno 2] No such file or directory: " ++ Text.quotedString name
  | .directory path => "[Errno 21] Is a directory: " ++ Text.quotedString path
  | .defect d => d.message

/-- Lines as text, each with a line feed at its end. -/
def withBreaks (ls : List String) : String :=
  String.join (ls.map fun l => l ++ "\n")

/-! ## The log -/

/-- The line of the log for a warning. -/
def logLine (w : Warning) : String :=
  s!"WARNING {w.origin}: {w.message}"

/-- The log of warnings. -/
def logText (logged : Bool) (ws : List Warning) : String :=
  if logged then withBreaks (ws.map logLine) else ""

/-- Whether warnings go to the log, at a level that was asked for or that the settings have. -/
def loggedAt (level : Option String) (env : Mapping String) : Except Fault Bool := do
  let name ← match level.filter fun l => !l.isEmpty with
    | some l => pure l
    | none => do pure (← (Settings.ofEnvironment env).mapError .settings).logLevel
  (logsWarnings (Text.uppercase name)).mapError .settings

/-! ## Checking a file -/

/-- The place of an issue, with a colon if there is one. -/
def placeText (i : Lint.Issue) : String :=
  let line := i.line.map fun n => s!"line {n}"
  let nonEmpty (s : Option String) := s.filter fun t => !t.isEmpty
  let block := (nonEmpty i.block).map fun b => s!"[{b}]"
  let scene := (nonEmpty i.scene).map fun s => s!"scene '{s}'"
  let parts := line.toList ++ block.toList ++ scene.toList
  if parts.isEmpty then "" else " ".intercalate parts ++ ": "

/-- The line for an issue. -/
def issueLine (i : Lint.Issue) : String :=
  let name := Text.uppercase i.severity.name
  let gap := String.ofList (List.replicate (7 - name.length) ' ')
  s!"  {name}{gap} {placeText i}{i.message}"

/-- The lines for issues. -/
def issueLines (issues : List Lint.Issue) : List String :=
  if issues.isEmpty then ["No issues found."]
  else s!"Found {issues.length} issue(s):" :: issues.map issueLine

/-- The lines for the size of a story. -/
def statisticsLines (s : Statistics) : List String :=
  ["", "Statistics:", s!"  Total scenes: {s.scenes}", s!"  Choices: {s.choices}",
    s!"  Endings: {s.endings}",
    s!"  Estimated playtime: {s.shortestTime} - {s.longestTime} minutes"]

/-- The issues of a script and of the story it holds, with the size of that story. -/
def inspect (source : String) : Logged Yaml.Defect (List Lint.Issue × Option Statistics) := do
  let issues ← Logged.lift (Lint.checkScript source)
  match ← Script.parse false source with
  | .error r => return (issues ++ [{ finding := .noStory r.message }], none)
  | .ok g =>
    let found ← Logged.lift ((Lint.checkGame g).mapError .number)
    return (issues ++ found, some g.statistics)

/-- The report on checking a file. -/
def validate (file source : String) (logged : Bool) : Except Fault Report := do
  let inspected := inspect source
  let (issues, statistics) ← inspected.result.mapError .defect
  let counts := (statistics.map statisticsLines).getD []
  return {
    status := if Lint.hasErrors issues then 1 else 0
    output := withBreaks ([s!"Validating: {file}", ""] ++ issueLines issues ++ counts)
    log := logText logged inspected.warnings }

/-! ## Playable stories -/

/-- The report on the playable story in a file. -/
def playable (source : String) (strict : Bool) (indent : Int) (logged : Bool) :
    Except Fault Report := do
  let parsed := Script.parse strict source
  let log := logText logged parsed.warnings
  match ← parsed.result.mapError .defect with
  | .error r => return { status := 1, output := "", log := log ++ s!"Error: {r.message}\n" }
  | .ok g =>
    let document := Schema.writePlayableGame g.playable
    let text ← (Json.render indent.toNat document).mapError fun f => .defect (.number f)
    return { status := 0, output := text ++ "\n", log := log }

/-! ## Files -/

/-- A path without empty steps and steps that stay in place. -/
def plainPath (path : String) : String :=
  let steps := (Text.splitAt '/' path.toList).filter fun s => !s.isEmpty && s ≠ ['.']
  let joined := String.ofList (List.intercalate ['/'] steps)
  let isRooted := path.toList.head? == some '/'
  if isRooted then "/" ++ joined else if joined.isEmpty then "." else joined

/-- Why no text can be read at a path: some paths can only name directories. -/
def unreadableFault (path : String) : Fault :=
  if [".", "..", "/"].contains path then .directory path else .missingFile path

/-- The text of a script as it is read from a file. -/
def fileText (text : String) : String :=
  String.ofList (Text.universalBreaks text.toList)

/-- The file that an action works on. -/
def Action.file? : Action → Option String
  | .validate file => some file
  | .playable file _ _ => some file
  | .serve _ _ => none

/-- The report on an action, given the text of its file.  Requests are answered by
`Storyline.Service` in a program that receives them, which the command line does not. -/
def report (a : Action) (text : String) (logged : Bool) : Except Fault Report :=
  match a with
  | .validate file => validate file (fileText text) logged
  | .playable _ strict indent => playable (fileText text) strict indent logged
  | .serve _ _ => .ok { status := 1, output := "", log := "Error: no requests are received\n" }

end Command

end Storyline
