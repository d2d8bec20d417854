import Storyline.Play
import Storyline.Schema.Document

/-!
# Variables of a story that is not read yet

The variables of a story as a document gives them: each is a value, or a record with a value and
what is said of it.  What is said is read only where it is asked for.

## Main definitions

* `isDescribed`: whether a variable is a record with a value
* `startValues`: the values with which the story starts
* `variableInfo?`, `visibleVariables`: what is said of one variable, and of those that are shown
* `firedTrigger?`: the scene of the first trigger that fires
-/

namespace Storyline.Schema

/-- Whether a variable is a record with a value. -/
def isDescribed (v : Value) : Bool :=
  (v.lookup? "value").isSome

/-- The values with which the story starts. -/
def startValues (vs : Mapping Value) : Mapping Value :=
  vs.map fun v => (v.lookup? "value").getD v

/-- The scalars among values. -/
def scalarsOf (vs : Mapping Value) : State :=
  Mapping.ofList (vs.toList.filterMap fun p => p.2.scalar?.map fun s => (p.1, s))

/-- What is said of a variable, if anything is. -/
def variableInfo? (v : Value) : Except (List Problem) (Option VariableInfo) :=
  if isDescribed v then (some <$> readVariableInfo {} v).toExcept else .ok none

/-- What is said of every variable, if anything is, in order. -/
def variableInfos (vs : Mapping Value) :
    Except (List Problem) (List (String × Option VariableInfo)) :=
  vs.toList.mapM fun p => do return (p.1, ← variableInfo? p.2)

/-- The variables that are shown, in order. -/
def visibleVariables (vs : Mapping Value) :
    Except (List Problem) (List (String × VariableInfo)) := do
  return (← variableInfos vs).filterMap fun p =>
    (p.2.filter fun i => i.visible == some true).map fun i => (p.1, i)

/-- Why it cannot be told which trigger fires. -/
inductive TriggerFault where
  | problems (ps : List Problem)
  | number (f : NumberFault)

/-- The scene of the first trigger that fires.  A variable is read only if it has a trigger. -/
def firedTriggerAmong? (state : State) :
    List (String × Value) → Logged TriggerFault (Option String)
  | [] => pure none
  | (name, v) :: vs => do
    if (v.lookup? "trigger").all Value.countsAsNothing then return ← firedTriggerAmong? state vs
    let info ← Logged.lift ((readVariableInfo {} v).toExcept.mapError .problems)
    match info.trigger with
    | none => firedTriggerAmong? state vs
    | some t =>
      if ← (triggerFires name t state).mapError .number then return some t.scene
      firedTriggerAmong? state vs

/-- The scene of the first trigger that fires. -/
def firedTrigger? (vs : Mapping Value) (state : State) : Logged TriggerFault (Option String) :=
  firedTriggerAmong? state vs.toList

end Storyline.Schema
