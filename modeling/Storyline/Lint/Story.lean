import Storyline.Expr.Assignment
import Storyline.Lint.Issue
import Storyline.Mention
import Storyline.Story.Game

/-!
# Checking a story

Whether every scene that is named is there, whether every scene can be reached, and whether
conditions, assignments and mentions mean something.

## Main definitions

* `Game.targets`: the scenes to which choices and triggers lead
* `checkGame`: the issues of a story
* `Statistics`, `Game.statistics`: how large a story is
-/

namespace Storyline

/-! ## Scenes that are named -/

/-- The trigger of a variable. -/
def InitialValue.trigger? (v : InitialValue) : Option Trigger :=
  v.info?.bind (·.trigger)

/-- The scenes to which the triggers of variables lead. -/
def InitialState.triggerScenes (s : InitialState) : List String :=
  s.values.filterMap fun v => v.trigger?.map (·.scene)

/-- The scenes to which the choices of a story lead. -/
def Game.choiceTargets (g : Game) : List String :=
  g.scenes.values.flatMap fun s => s.choices.map (·.target)

/-- The scenes to which choices and triggers lead. -/
def Game.targets (g : Game) : List String :=
  g.choiceTargets ++ InitialState.triggerScenes g.initialState

/-- Whether a story has a character. -/
def Game.hasCharacter (g : Game) (id : String) : Bool :=
  (g.making.characters.bind (·.get? id)).isSome

namespace Lint

/-! ## Issues -/

/-- The issues of a choice. -/
def checkChoice (g : Game) (scene : String) (c : Choice) : List Issue :=
  let undefined : List Finding :=
    if g.scenes.contains c.target then [] else [.undefinedScene c.target]
  let condition := (c.condition.bind Expr.problem?).map Finding.badCondition
  let assignments := (c.assignment.map Expr.statementProblems).getD []
  (undefined ++ condition.toList ++ assignments.map Finding.badAssignment).map fun f =>
    { finding := f, scene := some scene }

/-- The issues of a node in a scene. -/
def checkNode (g : Game) (scene : String) : Node Generated → List Issue
  | .choice c => checkChoice g scene c
  | .generated (.image _ character characters _) =>
    let shown := character.toList ++ characters.getD []
    (shown.filter fun id => !id.isEmpty && !g.hasCharacter id).map fun id =>
      { finding := .unknownCharacter id, scene := some scene, block := some "image-gen" }
  | .text content _ =>
    ((mentions content).filter fun id => !g.hasCharacter id).map fun id =>
      { finding := .unknownMention id, scene := some scene }
  | _ => []

/-- The condition of a trigger for a value. -/
def triggerCondition (value : Scalar) (t : Trigger) : Except NumberFault String := do
  return (← Operand.display (some value)) ++ " " ++ t.condition

/-- The issues of a variable. -/
def checkVariable (g : Game) (name : String) (v : InitialValue) :
    Except NumberFault (List Issue) :=
  match v.trigger? with
  | none => .ok []
  | some t => do
    let undefined : List Finding :=
      if g.scenes.contains t.scene then [] else [.undefinedTriggerScene name t.scene]
    let condition ← triggerCondition v.value t
    let bad := (Expr.problem? condition).map (Finding.badTrigger name)
    return (undefined ++ bad.toList).map fun f => { finding := f }

/-- Whether no choice and no trigger leads to a scene, nor the start of the story. -/
def isOrphan (g : Game) (scene : String) : Bool :=
  scene != g.start && !g.targets.contains scene

/-- The issues of a story. -/
def checkGame (g : Game) : Except NumberFault (List Issue) := do
  let start : List Issue :=
    if g.scenes.contains g.start then [] else [{ finding := .missingStart g.start }]
  let nodes := g.scenes.values.flatMap fun s => s.nodes.flatMap (checkNode g s.id)
  let values ← (Mapping.toList g.initialState).mapM fun p => checkVariable g p.1 p.2
  let orphans : List Issue := (g.scenes.keys.filter (isOrphan g)).map fun id =>
    { finding := .orphan id, scene := some id }
  return start ++ nodes ++ values.flatten ++ orphans

end Lint

/-! ## Statistics -/

/-- How large a story is; the playing time is in minutes. -/
structure Statistics where
  scenes : Nat
  choices : Nat
  endings : Nat
  shortestTime : Nat
  longestTime : Nat
  deriving Repr, DecidableEq

/-- How large a story is.  A scene takes one and a half to two and a half minutes, and half a minute
counts as a whole one. -/
def Game.statistics (g : Game) : Statistics :=
  { scenes := g.scenes.size
    choices := (g.scenes.values.flatMap Scene.choices).length
    endings := g.scenes.values.countP fun s => s.choices.isEmpty
    shortestTime := (3 * g.scenes.size + 1) / 2
    longestTime := (5 * g.scenes.size + 1) / 2 }

end Storyline
