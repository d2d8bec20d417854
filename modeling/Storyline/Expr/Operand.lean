import Storyline.Expr.Split
import Storyline.Scalar

/-!
# Operands

What one operand of a condition or an assignment stands for: a literal truth value or number, a
quoted text, or the value of a variable.

## Main definitions

* `unquoted?`: the text between quotes
* `resolve`: the value of an operand
-/

namespace Storyline.Expr

/-- The text between quotes: the operand starts and ends with the same quote. -/
def unquoted? (token : List Char) : Option (List Char) :=
  match token.head?, token.getLast? with
  | some a, some b => if isQuote a && a == b then some (token.drop 1).dropLast else none
  | _, _ => none

/-- The value of an operand: a truth value, a number, a quoted text or a variable, in this order. -/
def resolve (token : List Char) (state : State) : Except NumberFault Operand :=
  if token = "true".toList then .ok (some (.bool true))
  else if token = "false".toList then .ok (some (.bool false))
  else do
    match ← Number.readLiteral token with
    | some n => return some (.ofNumber n)
    | none =>
      match unquoted? token with
      | some t => return some (.str (String.ofList t))
      | none => return state.get? (String.ofList token)

end Storyline.Expr
