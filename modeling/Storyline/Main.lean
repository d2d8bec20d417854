import Storyline.Command.Report

/-!
# The program

The command line: reads the environment and the file that a command works on, and writes the report.
What is read and written is decided in `Storyline.Command` and `Storyline.Settings`.
-/

namespace Storyline

/-- The names in the environment that the settings are read from. -/
def settingNames : List String :=
  ["GAMEBOOK_STRICT", "LOG_LEVEL", "HOST", "PORT"]

/-- The environment as far as the settings and a file of further values name it. -/
def readEnvironment (file : String) : IO (Mapping String) := do
  let names := settingNames ++ Settings.referenceNames file
  let values ← names.filterMapM fun name => do
    return (← IO.getEnv name).map fun v => (name, v)
  return Mapping.ofList values

/-- The text of a file, none if it cannot be read. -/
def readText? (path : String) : IO (Option String) := do
  try
    return some (← IO.FS.readFile path)
  catch _ => return none

/-- The environment with what the file `.env` adds to it. -/
def environment : IO (Mapping String) := do
  let file := (← readText? ".env").getD ""
  return Settings.extend (← readEnvironment file) file

/-- The report on a request, which reads at most one file. -/
def runRequest (r : Command.Request) : IO (Except Command.Fault Command.Report) := do
  match Command.loggedAt r.logLevel (← environment) with
  | .error f => return .error f
  | .ok logged =>
    match r.action.file? with
    | none => return Command.report r.action "" logged
    | some file =>
      let path := Command.plainPath file
      match ← readText? path with
      | none => return .error (Command.unreadableFault path)
      | some text => return Command.report r.action text logged

end Storyline

/-- Runs the command line. -/
def main (args : List String) : IO UInt32 := do
  match Storyline.Command.readArguments args with
  | .error stop => return stop.status.toUInt32
  | .ok request =>
    match ← Storyline.runRequest request with
    | .error fault =>
      (← IO.getStderr).putStr (fault.message ++ "\n")
      return 1
    | .ok report =>
      (← IO.getStderr).putStr report.log
      (← IO.getStdout).putStr report.output
      return report.status.toUInt32
