import Storyline.Command.Report
import Storyline.Script.Written
import Storyline.Schema.Session

/-!
# Answering requests

The program as a service: every request carries a script or a session and gets an answer, and
nothing is kept in between.

## Main definitions

* `Request`, `Reply`: what is asked, and what is answered
* `endpoints`: the paths, with the method that each takes
* `respond`: the reply to a request
-/

namespace Storyline.Service

open Schema

/-- A request. -/
structure Request where
  method : String
  path : String
  body : Option Value := none

/-- A reply: an answer, a refusal with its status and reason, or the problems of the body. -/
inductive Reply where
  | answer (body : Value)
  | refusal (status : Nat) (reason : String)
  | invalid (problems : List Problem)

/-- The status of a reply. -/
def Reply.status : Reply → Nat
  | .answer _ => 200
  | .refusal status _ => status
  | .invalid _ => 422

/-- Why a request gets no reply. -/
inductive Fault where
  | settings (f : SettingsFault)
  | number (f : NumberFault)
  /-- A value in a script means nothing. -/
  | defect (d : Yaml.Defect)
  /-- An answer holds a double that is no finite number. -/
  | notFinite

/-- The words of a fault. -/
def Fault.message : Fault → String
  | .settings f => f.message
  | .number f => f.message
  | .defect d => d.message
  | .notFinite => "Out of range float values are not JSON compliant"

/-! ## Bodies -/

/-- How bodies are read. -/
def rules : Rules :=
  { notRecord := .notRecordOrObject }

/-- A script to compile; whether stories with errors are rejected may be left to the settings. -/
structure ParseBody where
  source : String
  strict : Option Bool

/-- An expression and the variables for it. -/
structure ExpressionBody where
  text : Option String
  state : State

/-- A choice in a session. -/
structure ChoiceBody where
  source : String
  session : Session
  index : Int

/-- A session to step back in. -/
structure UndoBody where
  source : String
  session : Session

/-- A script. -/
def readSource : Value → Checked String :=
  record rules fun fs => required ["source"] readString fs

/-- A script to compile. -/
def readParseBody : Value → Checked ParseBody :=
  record rules fun fs =>
    ParseBody.mk <$> required ["source"] readString fs <*> possible "strict" readBool fs

/-- An expression under a name, which may be missing, and variables. -/
def readExpression (name : String) : Value → Checked ExpressionBody :=
  record rules fun fs =>
    ExpressionBody.mk <$> possible name readString fs
      <*> withDefault ["state"] Mapping.empty readState fs

/-- A text and variables. -/
def readTemplate : Value → Checked ExpressionBody :=
  record rules fun fs =>
    ExpressionBody.mk <$> (some <$> required ["text"] readString fs)
      <*> withDefault ["state"] Mapping.empty readState fs

/-- A choice in a session. -/
def readChoiceBody : Value → Checked ChoiceBody :=
  record rules fun fs =>
    ChoiceBody.mk <$> required ["source"] readString fs
      <*> required ["session"] (Schema.readSession rules) fs <*> required ["index"] readInt fs

/-- A session to step back in. -/
def readUndoBody : Value → Checked UndoBody :=
  record rules fun fs =>
    UndoBody.mk <$> required ["source"] readString fs
      <*> required ["session"] (Schema.readSession rules) fs

/-! ## Answers -/

/-- What ends the handling of a request before there is an answer. -/
inductive Halt where
  | reply (r : Reply)
  | fault (f : Fault)

/-- A refusal. -/
def refuse {α : Type} (status : Nat) (reason : String) : Except Halt α :=
  .error (.reply (.refusal status reason))

/-- The body of a request; nothing counts as a missing body. -/
def readBody {α : Type} (read : Value → Checked α) (r : Request) : Except Halt α :=
  let checked := match r.body with
    | none | some .null => (Checked.problem .missing).under "body"
    | some v => (read v).under "body"
  checked.toExcept.mapError fun ps => .reply (.invalid ps)

/-- The story of a script.  Unless it is said otherwise, the settings decide whether errors
count. -/
def compile (env : Mapping String) (strict : Option Bool) (source : String) :
    Except Halt Game := do
  let strict ← match strict with
    | some b => pure b
    | none =>
      let settings ← (Settings.ofEnvironment env).mapError fun f => .fault (.settings f)
      pure settings.strict
  match ← (Script.parse strict source).result.mapError fun d => .fault (.defect d) with
  | .ok g => return g
  | .error r => refuse 400 r.message

/-- A step of a session; a step that cannot be taken is refused. -/
def step {α : Type} (x : Except PlayFault α) : Except Halt α :=
  match x with
  | .ok a => .ok a
  | .error (.number f) => .error (.fault (.number f))
  | .error f => refuse 409 f.message

/-- A number computed in an expression. -/
def computed {α : Type} (x : Except NumberFault α) : Except Halt α :=
  x.mapError fun f => .fault (.number f)

/-- A session with what the reader sees in it. -/
def viewAnswer (g : Game) (s : Session) : Except Halt Value := do
  let text ← step (g.stage.render s).result
  let choices ← step (g.stage.available s).result
  let ending ← step (g.stage.isEnding s)
  return Value.record [("session", writeSession s), ("text", writeStrings text),
    ("choices", .list (choices.map writeChoice)), ("ending", .bool ending)]

/-- An issue with all its fields. -/
def writeIssue (i : Lint.Issue) : Value :=
  Value.record [("severity", .str i.severity.name), ("message", .str i.message),
    ("line", (i.line.map fun n => Value.int n).getD .null), ("scene_id", .ofString? i.scene),
    ("block_type", .ofString? i.block)]

/-- The size of a story. -/
def writeStatistics (s : Statistics) : Value :=
  Value.record [("scenes", .int s.scenes), ("choices", .int s.choices),
    ("endings", .int s.endings), ("playtime_min", .int s.shortestTime),
    ("playtime_max", .int s.longestTime)]

/-- The settings. -/
def writeSettings (s : Settings) : Value :=
  Value.record [("strict", .bool s.strict), ("log_level", .str s.logLevel), ("host", .str s.host),
    ("port", .int s.port)]

/-! ## Endpoints -/

/-- What a request asks for. -/
inductive Endpoint where
  | health
  | settings
  | parse
  | stringify
  | validate
  | playable
  | evaluate
  | execute
  | interpolate
  | start
  | choose
  | undo
  deriving Repr, DecidableEq

/-- The paths, with the method that each takes and what it asks for. -/
def endpoints : List (String × String × Endpoint) :=
  [("/api/health", "GET", .health), ("/api/settings", "GET", .settings),
    ("/api/parse", "POST", .parse), ("/api/stringify", "POST", .stringify),
    ("/api/validate", "POST", .validate), ("/api/playable", "POST", .playable),
    ("/api/evaluate", "POST", .evaluate), ("/api/execute", "POST", .execute),
    ("/api/interpolate", "POST", .interpolate), ("/api/play/start", "POST", .start),
    ("/api/play/choose", "POST", .choose), ("/api/play/undo", "POST", .undo)]

/-- The answer of an endpoint. -/
def answer (env : Mapping String) (r : Request) : Endpoint → Except Halt Value
  | .health => .ok (Value.record [("status", .str "ok")])
  | .settings => do
    let settings ← (Settings.ofEnvironment env).mapError fun f => .fault (.settings f)
    return writeSettings settings
  | .parse => do
    let body ← readBody readParseBody r
    return writeGame (← compile env body.strict body.source)
  | .stringify => do
    let g ← readBody (readGame rules) r
    return Value.record [("source", .str (← computed (Script.write g)))]
  | .validate => do
    let source ← readBody readSource r
    let (issues, statistics) ←
      (Command.inspect source).result.mapError fun d => .fault (.defect d)
    return Value.record [("valid", .bool (!Lint.hasErrors issues)),
      ("issues", .list (issues.map writeIssue)),
      ("stats", (statistics.map writeStatistics).getD .null)]
  | .playable => do
    let g ← compile env none (← readBody readSource r)
    return writePlayableGame g.playable
  | .evaluate => do
    let body ← readBody (readExpression "condition") r
    return Value.record [("result", .bool (← computed (Expr.evaluate body.text body.state).result))]
  | .execute => do
    let body ← readBody (readExpression "instruction") r
    let state ← computed (Expr.execute body.text body.state).result
    return Value.record [("state", writeState state)]
  | .interpolate => do
    let body ← readBody readTemplate r
    let text ← computed (Expr.interpolate (body.text.getD "") body.state).result
    return Value.record [("text", .str text)]
  | .start => do
    let g ← compile env none (← readBody readSource r)
    viewAnswer g g.stage.begin
  | .choose => do
    let body ← readBody readChoiceBody r
    let g ← compile env none body.source
    viewAnswer g (← step (g.stage.choose body.session body.index).result)
  | .undo => do
    let body ← readBody readUndoBody r
    let g ← compile env none body.source
    viewAnswer g (← step body.session.undo)

/-! ## Writing answers -/

mutual

/-- Why data cannot be sent: a double that is no finite number, or an integer that is too long. -/
def unsendable? : Value → Option Fault
  | .float x => if x.isFinite then none else some .notFinite
  | .int n =>
    match Number.writeInt n with
    | .ok _ => none
    | .error f => some (.number f)
  | .list items => unsendableItem? items
  | .map entries => unsendableField? entries
  | _ => none

/-- Why items cannot be sent. -/
def unsendableItem? : List Value → Option Fault
  | [] => none
  | v :: vs => (unsendable? v).or (unsendableItem? vs)

/-- Why entries cannot be sent. -/
def unsendableField? : List (Value × Value) → Option Fault
  | [] => none
  | (_, v) :: es => (unsendable? v).or (unsendableField? es)

end

/-! ## Requests -/

/-- The endpoint of a path, with its method.  Slashes at the end do not count. -/
def endpoint? (path : String) : Option (String × Endpoint) :=
  let plain := path.toList.takeWhile fun c => c != '?' && c != '#'
  let bare := (plain.reverse.dropWhile (· = '/')).reverse
  endpoints.lookup (String.ofList bare)

/-- The reply to a request. -/
def respond (env : Mapping String) (r : Request) : Except Fault Reply :=
  match endpoint? r.path with
  | none => .ok (.refusal 404 "Not Found")
  | some (method, endpoint) =>
    if r.method != method then .ok (.refusal 405 "Method Not Allowed")
    else match answer env r endpoint with
      | .error (.reply reply) => .ok reply
      | .error (.fault f) => .error f
      | .ok body =>
        match unsendable? body with
        | some f => .error f
        | none => .ok (.answer body)

end Storyline.Service
