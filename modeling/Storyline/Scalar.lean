import Storyline.Number.Literal
import Storyline.Number.Shortest
import Storyline.Mapping

/-!
# Scalars

The values of story variables: truth values, integers, doubles and strings, and how they turn into
one another where a condition or a text asks for it.  A variable may be missing, so the operands of
conditions are optional scalars.

## Main definitions

* `Scalar`, `State`: a value, and the variables of a running story
* `toFloat`, `truthy`, `display`: an operand as a number, as a truth value and as text
* `looseEquals`: equality across kinds
-/

namespace Storyline

/-- The value of a story variable. -/
inductive Scalar where
  | bool (b : Bool)
  | int (n : Int)
  | float (x : Float)
  | str (s : String)
  deriving Repr

/-- The variables of a running story. -/
abbrev State := Mapping Scalar

/-- Whether two numbers are of one kind and have one value; no number counts as itself. -/
def Number.same : Number → Number → Bool
  | .int a, .int b => a == b
  | .float x, .float y => x == y || (x.isNaN && y.isNaN)
  | _, _ => false

instance : BEq Number := ⟨Number.same⟩

namespace Scalar

/-- Whether two scalars are of one kind and have one value; no number counts as itself. -/
def same : Scalar → Scalar → Bool
  | .bool a, .bool b => a == b
  | .int a, .int b => a == b
  | .float a, .float b => a == b || (a.isNaN && b.isNaN)
  | .str a, .str b => a == b
  | _, _ => false

instance : BEq Scalar := ⟨same⟩

/-- The scalar of a number. -/
def ofNumber : Number → Scalar
  | .int n => .int n
  | .float x => .float x

/-- The number that a scalar is; truth values and strings are not numbers. -/
def number? : Scalar → Option Number
  | .int n => some (.int n)
  | .float x => some (.float x)
  | _ => none

end Scalar

/-- What an operand of a condition stands for; none for a variable that is not there. -/
abbrev Operand := Option Scalar

namespace Operand

/-- The number that a text stands for: nothing but blanks is zero, and a text that spells no number
is not a number. -/
def textToFloat (s : String) : Except NumberFault Float := do
  if Text.allBlank s then return 0
  match ← Number.readLiteral s.toList with
  | some n => n.toFloat
  | none => return Number.notANumber

/-- An operand as a number: truth values are one and zero. -/
def toFloat : Operand → Except NumberFault Float
  | none => .ok Number.notANumber
  | some (.bool b) => .ok (if b then 1 else 0)
  | some (.int n) => Number.floatOfInt n
  | some (.float x) => .ok x
  | some (.str s) => textToFloat s

/-- An operand as a truth value: what is missing, zero, empty or not a number is false. -/
def truthy : Operand → Bool
  | none => false
  | some (.bool b) => b
  | some (.int n) => n != 0
  | some (.float x) => !x.isNaN && x != 0
  | some (.str s) => !s.isEmpty

/-- An operand as text.  A double that is an integer is written without a point. -/
def display : Operand → Except NumberFault String
  | none => .ok "undefined"
  | some (.bool b) => .ok (if b then "true" else "false")
  | some (.int n) => Number.writeInt n
  | some (.float x) =>
    match Number.form x, Number.toInt? x with
    | .nan, _ => .ok "NaN"
    | .infinite negative, _ => .ok (if negative then "-Infinity" else "Infinity")
    | .finite .., some n => Number.writeInt n
    | .finite .., none => .ok (Number.floatText x)
  | some (.str s) => .ok s

/-- Whether the operand is a number. -/
def isNumber (a : Operand) : Bool :=
  (a.bind Scalar.number?).isSome

/-- Whether two numbers are equal.  Integer and double are compared exactly. -/
def numbersEqual : Number → Number → Bool
  | .int a, .int b => a == b
  | .int a, .float y => Number.equalsInt y a
  | .float x, .int b => Number.equalsInt x b
  | .float x, .float y => x == y

/-- Equality of two operands, of which neither is a truth value unless both are.  A string equals a
number if it spells it. -/
def equalsPlain : Scalar → Scalar → Except NumberFault Bool
  | .bool a, .bool b => .ok (a == b)
  | .str a, .str b => .ok (a == b)
  | a, .str t =>
    match a.number? with
    | some m => do return numbersEqual m (.float (← textToFloat t))
    | none => .ok false
  | .str s, b =>
    match b.number? with
    | some n => do return numbersEqual (.float (← textToFloat s)) n
    | none => .ok false
  | a, b =>
    match a.number?, b.number? with
    | some m, some n => .ok (numbersEqual m n)
    | _, _ => .ok false

/-- Equality across kinds: what is missing equals only what is missing, and a truth value beside
another kind is one or zero. -/
def looseEquals : Operand → Operand → Except NumberFault Bool
  | none, none => .ok true
  | none, some _ => .ok false
  | some _, none => .ok false
  | some (.bool a), some (.bool b) => .ok (a == b)
  | some (.bool a), some b => equalsPlain (.float (if a then 1 else 0)) b
  | some a, some (.bool b) => equalsPlain a (.float (if b then 1 else 0))
  | some a, some b => equalsPlain a b

end Operand

end Storyline
