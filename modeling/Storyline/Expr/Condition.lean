import Storyline.Expr.Operand
import Storyline.Logged

/-!
# Conditions

A condition is a row of sub-conditions, all of which must hold; each is an operand that is true, or
a comparison of two operands.  Nothing but blanks holds always.

## Main definitions

* `Comparison`, `Token`, `tokenize`: the operators and operands of one comparison
* `subconditions`: the parts between `&&` and commas
* `evaluate`: whether a condition holds
* `problem?`: why a condition cannot be evaluated, found without a state

## Main results

* `length_lt_of_mem_subconditions`: of two or more sub-conditions each is shorter than the whole
-/

namespace Storyline.Expr

open Text

/-- The operators that compare two operands. -/
inductive Comparison where
  | eq
  | ne
  | ge
  | le
  | gt
  | lt
  deriving Repr, DecidableEq

/-- An operator as it is written. -/
def Comparison.text : Comparison → String
  | .eq => "=="
  | .ne => "!="
  | .ge => ">="
  | .le => "<="
  | .gt => ">"
  | .lt => "<"

/-- A piece of a comparison. -/
inductive Token where
  | operand (text : List Char)
  | op (c : Comparison)
  deriving Repr, DecidableEq

/-- Puts a character in front of the text before the first operator. -/
def consFirst (c : Char) (p : List Char × List (Comparison × List Char)) :
    List Char × List (Comparison × List Char) :=
  (c :: p.1, p.2)

/-- Puts an operator, with no text before it, in front of the text after it. -/
def consOperator (o : Comparison) (p : List Char × List (Comparison × List Char)) :
    List Char × List (Comparison × List Char) :=
  ([], (o, p.1) :: p.2)

/-- A text cut at its operators outside quotes: the text before the first one, and every operator
with the text after it.  Of two operators that start at one place the longer one counts. -/
def cutOperators : Option Char → List Char → List Char × List (Comparison × List Char)
  | _, [] => ([], [])
  | some q, c :: r => consFirst c (cutOperators (afterChar (some q) c) r)
  | none, '=' :: '=' :: r => consOperator .eq (cutOperators none r)
  | none, '!' :: '=' :: r => consOperator .ne (cutOperators none r)
  | none, '>' :: '=' :: r => consOperator .ge (cutOperators none r)
  | none, '<' :: '=' :: r => consOperator .le (cutOperators none r)
  | none, '>' :: r => consOperator .gt (cutOperators none r)
  | none, '<' :: r => consOperator .lt (cutOperators none r)
  | none, c :: r => consFirst c (cutOperators (afterChar none c) r)

/-- The operand that a text holds; nothing but blanks is no operand. -/
def operandTokens (s : List Char) : List Token :=
  match trim s with
  | [] => []
  | t => [.operand t]

/-- The operands and operators of a text. -/
def tokenize (s : List Char) : List Token :=
  let p := cutOperators none s
  operandTokens p.1 ++ p.2.flatMap fun q => .op q.1 :: operandTokens q.2

/-- The sub-conditions of a condition: the parts between `&&` and commas that are not blank. -/
def subconditions (s : List Char) : List (List Char) :=
  ((split ["&&".toList, ",".toList] s).map trim).filter (· ≠ [])

theorem length_trim_le (s : List Char) : (trim s).length ≤ s.length := by
  have h1 : ∀ t : List Char, (trimLeft t).length ≤ t.length := fun t =>
    (List.dropWhile_sublist _).length_le
  have h2 : ∀ t : List Char, (trimRight t).length ≤ t.length := fun t => by
    simpa [trimRight] using (List.dropWhile_sublist isBlank (l := t.reverse)).length_le
  exact Nat.le_trans (h2 _) (h1 s)

/-- Of two or more sub-conditions each is shorter than the whole condition. -/
theorem length_lt_of_mem_subconditions {c s : List Char} (hs : s ∈ subconditions c)
    (h : 1 < (subconditions c).length) : s.length < c.length := by
  unfold subconditions at hs h
  obtain ⟨hs, -⟩ := List.mem_filter.1 hs
  obtain ⟨p, hp, rfl⟩ := List.mem_map.1 hs
  refine Nat.lt_of_le_of_lt (length_trim_le p) (length_lt_of_mem_splitOutside hp ?_)
  have := List.length_filter_le (· ≠ []) ((split ["&&".toList, ",".toList] c).map trim)
  rw [List.length_map] at this
  exact Nat.lt_of_lt_of_le h this

/-- Whether every element passes a test; the first that fails ends the search. -/
def allHold {ε α : Type} (test : α → Logged ε Bool) : List α → Logged ε Bool
  | [] => pure true
  | x :: xs => do
    if ← test x then allHold test xs else pure false

/-- Whether two operands stand in the relation of an operator. -/
def compare (op : Comparison) (left right : Operand) : Except NumberFault Bool := do
  match op with
  | .eq => left.looseEquals right
  | .ne => return !(← left.looseEquals right)
  | .gt => ordered (fun x y => y < x)
  | .lt => ordered (fun x y => x < y)
  | .ge => ordered (fun x y => y ≤ x)
  | .le => ordered (fun x y => x ≤ y)
where
  /-- Compares the operands as numbers; what is not a number stands in no relation. -/
  ordered (f : Float → Float → Bool) : Except NumberFault Bool := do
    let x ← left.toFloat
    let y ← right.toFloat
    return !x.isNaN && !y.isNaN && f x y

/-- Whether one sub-condition holds. -/
def evaluateSingle (s : List Char) (state : State) : Logged NumberFault Bool :=
  match tokenize s with
  | [.operand a] => Logged.lift do return (← resolve a state).truthy
  | [.operand a, .op c, .operand b] => Logged.lift do
    let left ← resolve a state
    let right ← resolve b state
    compare c left right
  | _ => do
    Logged.warn (.unsupportedCondition (String.ofList s))
    return false

/-- Whether a condition holds in a state. -/
def evaluateChars (c : List Char) (state : State) : Logged NumberFault Bool :=
  if c.all isBlank then pure true
  else if _h : 1 < (subconditions c).length then
    allHold (fun s : { s // s ∈ subconditions c } => evaluateChars s.1 state)
      (subconditions c).attach
  else evaluateSingle c state
termination_by c.length
decreasing_by exact length_lt_of_mem_subconditions s.2 _h

/-- Whether a condition holds in a state; no condition holds always. -/
def evaluate (condition : Option String) (state : State) : Logged NumberFault Bool :=
  match condition with
  | none => pure true
  | some c => evaluateChars c.toList state

/-- Whether the pieces are one operand or a comparison of two. -/
def wellFormed : List Token → Bool
  | [.operand _] => true
  | [.operand _, .op _, .operand _] => true
  | _ => false

/-- Why a condition cannot be evaluated: its first sub-condition of another shape. -/
def problem? (condition : String) : Option String :=
  (subconditions condition.toList).find? (fun s => !wellFormed (tokenize s)) |>.map fun s =>
    (Warning.unsupportedCondition (String.ofList s)).message

end Storyline.Expr
