import Storyline.Scalar

/-!
# Variables of a story

The variables a story starts with.  A variable is a plain value, or a value with what a reader's
screen shows of it and with a trigger that moves the story when the value changes.

## Main definitions

* `Trigger`, `Display`, `VariableInfo`, `InitialValue`: a variable and what is said of it
* `InitialState.runtime`: the values alone, with which a story starts
* `InitialState.visible`: the variables that are shown
-/

namespace Storyline

/-- Where the story goes once the value of a variable stands in a relation, such as `<= 0`. -/
structure Trigger where
  condition : String
  scene : String
  deriving Repr, DecidableEq

/-- How a variable is shown. -/
inductive Display where
  | value
  | progress
  | icon
  deriving Repr, DecidableEq

/-- The name of a way to show a variable. -/
def Display.name : Display → String
  | .value => "value"
  | .progress => "progress"
  | .icon => "icon"

/-- A variable with what is said of it. -/
structure VariableInfo where
  value : Scalar
  visible : Option Bool := none
  display : Option Display := none
  max : Option Number := none
  label : Option String := none
  icon : Option String := none
  trigger : Option Trigger := none
  deriving BEq

/-- What a variable starts with. -/
inductive InitialValue where
  | plain (value : Scalar)
  | described (info : VariableInfo)
  deriving BEq

/-- The value that a variable starts with. -/
def InitialValue.value : InitialValue → Scalar
  | .plain v => v
  | .described i => i.value

/-- What is said of a variable, if anything is. -/
def InitialValue.info? : InitialValue → Option VariableInfo
  | .plain _ => none
  | .described i => some i

/-- The variables of a story before it starts. -/
abbrev InitialState := Mapping InitialValue

namespace InitialState

/-- The values with which a story starts. -/
def runtime (s : InitialState) : State :=
  Mapping.map InitialValue.value s

/-- What is said of a variable, if it is there and anything is said. -/
def info? (s : InitialState) (name : String) : Option VariableInfo :=
  (Mapping.get? s name).bind InitialValue.info?

/-- The variables that are shown, in order. -/
def visible (s : InitialState) : List (String × VariableInfo) :=
  s.toList.filterMap fun p =>
    match p.2.info? with
    | some i => if i.visible == some true then some (p.1, i) else none
    | none => none

end InitialState

end Storyline
