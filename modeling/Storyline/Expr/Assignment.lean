import Storyline.Expr.Condition

/-!
# Assignments

An instruction is a row of assignments `name = expression` between commas.  An expression is an
operand, or a sum or difference of two.  The assignments run from left to right on the same
variables; one that cannot be carried out is left out with a warning.

## Main definitions

* `statement?`: the name and the expression of an assignment
* `arithmetic?`: the two operands and the sign of a sum or difference
* `execute`: the variables after an instruction
* `statementProblems`: the assignments that no state lets run
-/

namespace Storyline.Expr

open Text

/-- The parts of an instruction, between commas outside quotes. -/
def statements (s : List Char) : List (List Char) :=
  ((split [",".toList] s).map trim).filter (· ≠ [])

/-- The name and the expression of an assignment: there is exactly one equals sign outside quotes,
a name of word characters before it and something after it. -/
def statement? (s : List Char) : Option (List Char × List Char) :=
  match split ["=".toList] s with
  | [left, right] =>
    let name := trim left
    let expression := trim right
    if name ≠ [] && name.all isWord && expression ≠ [] then some (name, expression) else none
  | _ => none

/-- The sign of a sum or difference. -/
inductive Sign where
  | plus
  | minus
  deriving Repr, DecidableEq

/-- A sign as it is written. -/
def Sign.char : Sign → Char
  | .plus => '+'
  | .minus => '-'

/-- The sign that a character is. -/
def sign? (c : Char) : Option Sign :=
  if c = '+' then some .plus else if c = '-' then some .minus else none

/-- The first sign outside quotes with something other than blanks before it: the text before it,
given in reverse with what was read already, the sign and the text after it. -/
def firstSign? (quote : Option Char) (before : List Char) :
    List Char → Option (List Char × Sign × List Char)
  | [] => none
  | c :: r =>
    match quote, sign? c with
    | none, some sign =>
      if before.all isBlank then firstSign? none (c :: before) r
      else some (before.reverse, sign, r)
    | _, _ => firstSign? (afterChar quote c) (c :: before) r

/-- The operands and the sign of a sum or difference.  A number literal is never one. -/
def arithmetic? (s : List Char) : Except NumberFault (Option (List Char × Sign × List Char)) := do
  match ← Number.readLiteral s with
  | some _ => return none
  | none =>
    match firstSign? none [] s with
    | some (left, sign, right) =>
      let right := trim right
      return if right = [] then none else some (trim left, sign, right)
    | none => return none

/-- The sum or difference of two numbers; an integer beside a double counts as a double. -/
def combine (sign : Sign) : Number → Number → Except NumberFault Number
  | .int m, .int n => .ok (.int (match sign with | .plus => m + n | .minus => m - n))
  | m, n => do
    let x ← m.toFloat
    let y ← n.toFloat
    return .float (match sign with | .plus => x + y | .minus => x - y)

/-- The value that an expression gives to a variable, or why it gives none. -/
def expressionValue (statement expression : List Char) (state : State) :
    Except NumberFault (Except Warning Scalar) := do
  match ← arithmetic? expression with
  | some (left, sign, right) =>
    let a ← resolve left state
    let b ← resolve right state
    match a.bind Scalar.number?, b.bind Scalar.number? with
    | some m, some n => return .ok (.ofNumber (← combine sign m n))
    | _, _ => return .error (.invalidArithmetic (String.ofList statement))
  | none =>
    match ← resolve expression state with
    | some v => return .ok v
    | none => return .error (.undefinedValue (String.ofList statement))

/-- The variables after one assignment. -/
def executeStatement (state : State) (s : List Char) : Logged NumberFault State :=
  match statement? s with
  | none => do
    Logged.warn (.invalidAssignment (String.ofList s))
    return state
  | some (name, expression) => do
    match ← Logged.lift (expressionValue s expression state) with
    | .ok v => return state.insert (String.ofList name) v
    | .error w =>
      Logged.warn w
      return state

/-- The variables after assignments, from left to right. -/
def executeAll (state : State) : List (List Char) → Logged NumberFault State
  | [] => pure state
  | s :: rest => do executeAll (← executeStatement state s) rest

/-- The variables after an instruction; no instruction changes nothing. -/
def execute (instruction : Option String) (state : State) : Logged NumberFault State :=
  match instruction with
  | none => pure state
  | some i => executeAll state (statements i.toList)

/-- The assignments of an instruction that no state lets run, as warnings. -/
def statementProblems (instruction : String) : List Warning :=
  ((statements instruction.toList).filter fun s => (statement? s).isNone).map fun s =>
    .invalidAssignment (String.ofList s)

end Storyline.Expr
