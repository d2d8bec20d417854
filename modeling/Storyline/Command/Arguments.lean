import Storyline.Number.Spelled

/-!
# Arguments of the command line

What the arguments ask for.  An option may stand anywhere beside the arguments of its command, may
be shortened as long as it stays unique, and takes its value from the next argument or after an
equals sign.  After two hyphens alone everything is an argument.

## Main definitions

* `Word`, `word`: what an argument is at some level of the command line
* `Given`, `readWords`: the options and the argument of a command
* `Request`, `readArguments`: what the arguments ask for
-/

namespace Storyline.Command

/-- Why the program ends before it runs a command. -/
inductive Stop where
  /-- Help was asked for. -/
  | help
  /-- The arguments ask for nothing. -/
  | misuse
  deriving Repr, DecidableEq

/-- The status with which the program ends. -/
def Stop.status : Stop → Nat
  | .help => 0
  | .misuse => 2

/-- What an option takes as its value. -/
inductive Takes where
  | nothing
  | text
  | integer
  deriving Repr, DecidableEq

/-- An option: its name and what it takes. -/
structure Flag where
  name : String
  takes : Takes := .nothing
  deriving Repr, DecidableEq

/-- The options that ask for help. -/
def helpFlags : List Flag :=
  [{ name := "-h" }, { name := "--help" }]

/-! ## Words -/

/-- What an argument is. -/
inductive Word where
  | plain (text : String)
  /-- An option, with the value after its equals sign. -/
  | option (f : Flag) (value : Option String)
  /-- An option of one letter, with the letters right after it. -/
  | letters (f : Flag) (rest : List Char)
  | unknown
  /-- Two hyphens alone. -/
  | divider
  deriving Repr, DecidableEq

/-- A text before its first equals sign, and the text after that sign. -/
def cutAtEquals (s : List Char) : List Char × Option (List Char) :=
  match s.dropWhile (· ≠ '=') with
  | [] => (s, none)
  | _ :: r => (s.takeWhile (· ≠ '='), some r)

/-- Whether a text is a negative number, which is no option. -/
def isNegativeNumber (s : List Char) : Bool :=
  match s with
  | '-' :: r =>
    let whole := r.takeWhile Text.isDecimal
    match r.dropWhile Text.isDecimal with
    | [] => !whole.isEmpty
    | '.' :: t => !t.isEmpty && t.all Text.isDecimal
    | _ => false
  | _ => false

/-- The options that a shortened one may mean, with their values. -/
def candidates (flags : List Flag) (s : List Char) : List Word :=
  match s with
  | '-' :: '-' :: _ =>
    let (start, value) := cutAtEquals s
    (flags.filter fun f => start.isPrefixOf f.name.toList).map fun f =>
      .option f (value.map String.ofList)
  | _ =>
    (flags.filter fun f => f.name.toList == s.take 2).map fun f => .letters f (s.drop 2)

/-- What an argument in front of a divider is. -/
def word (flags : List Flag) (s : List Char) : Except Stop Word :=
  let plain := Word.plain (String.ofList s)
  let exact (name : List Char) := flags.find? fun f => f.name.toList == name
  let (start, value) := cutAtEquals s
  if s.head? ≠ some '-' then .ok plain
  else if s = ['-', '-'] then .ok .divider
  else match exact s with
    | some f => .ok (.option f none)
    | none =>
      if s = ['-'] then .ok plain
      else match if value.isSome then exact start else none with
        | some f => .ok (.option f (value.map String.ofList))
        | none =>
          match candidates flags s with
          | [w] => .ok w
          | _ :: _ :: _ => .error .misuse
          -- What is no option may still be an argument: a negative number, or words with a blank.
          | [] => .ok (if isNegativeNumber s || s.contains ' ' then plain else .unknown)

/-- What arguments are; those after a divider are plain. -/
def words (flags : List Flag) : List String → Except Stop (List Word)
  | [] => .ok []
  | s :: ss => do
    match ← word flags s.toList with
    | .divider => return .divider :: ss.map Word.plain
    | w => return w :: (← words flags ss)

/-! ## Commands -/

/-- What is given to a command: the values of its options, its argument, and whether there is
anything else. -/
structure Given where
  values : List (String × String) := []
  switches : List String := []
  argument : Option String := none
  excess : Bool := false
  deriving Repr, DecidableEq

/-- What is given with one more option that takes no value. -/
def addSwitch (f : Flag) (g : Given) : Except Stop Given :=
  if helpFlags.contains f then .error .help else .ok { g with switches := f.name :: g.switches }

/-- What letters right after an option of one letter ask for.  The only such option asks for help,
and letters that are no options are passed over. -/
def readLetters : List Char → Stop
  | [] => .help
  | 'h' :: '=' :: _ => .misuse
  | 'h' :: r => readLetters r
  | c :: _ => if c = '-' then .misuse else .help

/-- The integer that the value of an option spells. -/
def integer (text : String) : Except Stop Int :=
  match Number.spelledInt 10 text.toList with
  | .ok (some n) => .ok n
  | _ => .error .misuse

/-- What is given with the value of one more option. -/
def addValue (f : Flag) (value : String) (g : Given) : Except Stop Given := do
  if f.takes = .integer then
    let _ ← integer value
  return { g with values := (f.name, value) :: g.values }

/-- What is given with one more argument. -/
def addArgument (text : String) (g : Given) : Given :=
  match g.argument with
  | none => { g with argument := some text }
  | some _ => { g with excess := true }

/-- What words give to a command with one argument.  A divider counts as nothing beside the
argument. -/
def readWords (g : Given) : List Word → Except Stop Given
  | [] => .ok g
  | .letters _ rest :: _ => .error (readLetters rest)
  | .option f (some v) :: ws =>
    if f.takes = .nothing then .error .misuse else do readWords (← addValue f v g) ws
  | .option f none :: ws =>
    if f.takes = .nothing then do readWords (← addSwitch f g) ws
    else match ws with
      | .plain v :: ws => do readWords (← addValue f v g) ws
      | _ => .error .misuse
  | .unknown :: ws => readWords { g with excess := true } ws
  | .divider :: .plain s :: ws => readWords (addArgument s g) ws
  | .divider :: ws => readWords { g with excess := true } ws
  -- A divider right behind an argument goes with it.
  | .plain s :: .divider :: ws => readWords (addArgument s g) ws
  | .plain s :: ws => readWords (addArgument s g) ws

/-- What the program is asked to do. -/
inductive Action where
  /-- Check the script in a file. -/
  | validate (file : String)
  /-- Print the playable story of the script in a file. -/
  | playable (file : String) (strict : Bool) (indent : Int)
  /-- Answer requests. -/
  | serve (host : Option String) (port : Option Int)
  deriving Repr, DecidableEq

/-- The options of a command, none if there is no such command. -/
def flagsOf? (command : String) : Option (List Flag) :=
  match command with
  | "validate" => some helpFlags
  | "playable" => some (helpFlags ++ [{ name := "--strict" }, ⟨"--indent", .integer⟩])
  | "serve" =>
    some (helpFlags ++ [⟨"--host", .text⟩, ⟨"--port", .integer⟩, { name := "--reload" }])
  | _ => none

/-- The action of a command with what is given to it. -/
def action (command : String) (g : Given) : Except Stop Action := do
  match command, g.argument with
  | "validate", some file => return .validate file
  | "playable", some file =>
    let indent ← ((g.values.lookup "--indent").map integer).getD (.ok 2)
    return .playable file (g.switches.contains "--strict") indent
  | "serve", none =>
    let port ← (g.values.lookup "--port").mapM integer
    return .serve (g.values.lookup "--host") port
  | _, _ => throw .misuse

/-- The action that a command with its arguments asks for. -/
def readCommand (command : String) (rest : List String) : Except Stop Action := do
  let some flags := flagsOf? command | throw .misuse
  let g ← readWords {} (← words flags rest)
  if g.excess then throw .misuse
  action command g

/-- What the arguments ask for: an action, and the level of the log. -/
structure Request where
  logLevel : Option String
  action : Action
  deriving Repr, DecidableEq

/-- The options in front of a command. -/
def programFlags : List Flag :=
  helpFlags ++ [⟨"--log-level", .text⟩]

/-- What words ask for, each beside the argument that it is. -/
def readProgram (level : Option String) (excess : Bool) :
    List (Word × String) → Except Stop Request
  | [] => .error .misuse
  | (.letters _ rest, _) :: _ => .error (readLetters rest)
  | (.option f (some v), _) :: ws =>
    if f.takes = .nothing then .error .misuse else readProgram (some v) excess ws
  | (.option f none, _) :: ws =>
    if f.takes = .nothing then .error .help
    else match ws with
      | (.plain v, _) :: ws => readProgram (some v) excess ws
      | _ => .error .misuse
  | (.unknown, _) :: ws => readProgram level true ws
  | (.divider, _) :: _ => .error .misuse
  | (.plain command, _) :: ws => do
    let a ← readCommand command (ws.map (·.2))
    if excess then throw .misuse
    return { logLevel := level, action := a }

/-- What arguments ask for. -/
def readArguments (args : List String) : Except Stop Request := do
  readProgram none false ((← words programFlags args).zip args)

end Storyline.Command
