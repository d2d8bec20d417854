import Storyline.Expr.Assignment
import Storyline.Expr.Template
import Storyline.Mention
import Storyline.Story.Game

/-!
# Playing a story

A session is a value: where the reader is, what the variables are, and where the reader has been.
Every step makes a new session, so whoever plays keeps sessions as they like.

## Main definitions

* `Turn`, `Session`: a scene with its variables, and the present turn with those before it
* `Stage.begin`, `Stage.choose`, `Session.undo`: the steps of a session
* `Stage.available`, `Stage.render`: what the reader sees
* `InitialState.fired?`: the scene of the first trigger that fires

## Main results

* `undo_choose`: taking a choice back gives the session before it
-/

namespace Storyline

/-! ## Sessions -/

/-- A scene, and the variables in it. -/
structure Turn where
  scene : String
  state : State

/-- The present turn, and the turns before it, the latest first. -/
structure Session where
  scene : String
  state : State
  past : List Turn := []

/-- The present turn of a session. -/
def Session.turn (s : Session) : Turn :=
  { scene := s.scene, state := s.state }

/-- Why a step cannot be taken. -/
inductive PlayFault where
  /-- The session is in a scene that is not there. -/
  | missingScene (scene : String)
  | noChoice (scene : String) (index : Int)
  /-- The condition of a choice, given by its text, does not hold. -/
  | unavailable (text : String)
  | nothingToUndo
  | number (f : NumberFault)
  deriving Repr, DecidableEq

/-- The words of a fault. -/
def PlayFault.message : PlayFault → String
  | .missingScene scene => s!"Scene '{scene}' does not exist"
  | .noChoice scene index => s!"Scene '{scene}' has no choice {index}"
  | .unavailable text => s!"Choice '{text}' is not available"
  | .nothingToUndo => "Nothing to undo"
  | .number f => f.message

/-! ## Triggers -/

/-- Whether the trigger of a variable fires.  Its condition is about the value of the variable; a
variable that is not there fires nothing. -/
def triggerFires (name : String) (t : Trigger) (state : State) : Logged NumberFault Bool :=
  match state.get? name with
  | none => pure false
  | some v => do
    let value ← Logged.lift (Operand.display (some v))
    Expr.evaluate (some (value ++ " " ++ t.condition)) state

/-- The scene of the first trigger that fires. -/
def firstFired? (state : State) : List (String × Trigger) → Logged NumberFault (Option String)
  | [] => pure none
  | (name, t) :: ts => do
    if ← triggerFires name t state then return some t.scene
    firstFired? state ts

namespace InitialState

/-- The triggers of variables, with the names of the variables, in order. -/
def triggers (s : InitialState) : List (String × Trigger) :=
  s.toList.filterMap fun p => (p.2.info?.bind (·.trigger)).map fun t => (p.1, t)

/-- The scene of the first trigger that fires. -/
def fired? (s : InitialState) (state : State) : Logged NumberFault (Option String) :=
  firstFired? state s.triggers

end InitialState

/-! ## What the reader sees -/

namespace Stage

variable {G : Type}

/-- The session with which a story starts. -/
def begin (st : Stage G) : Session :=
  { scene := st.start, state := InitialState.runtime st.initialState }

/-- The scene that a session is in. -/
def currentScene (st : Stage G) (s : Session) : Except PlayFault (Scene G) :=
  match st.scenes.get? s.scene with
  | some scene => .ok scene
  | none => .error (.missingScene s.scene)

/-- The choices of the present scene, available or not. -/
def choices (st : Stage G) (s : Session) : Except PlayFault (List Choice) :=
  (st.currentScene s).map Scene.choices

/-- Whether the condition of a choice holds. -/
def isAvailable (c : Choice) (state : State) : Logged PlayFault Bool :=
  (Expr.evaluate c.condition state).mapError .number

/-- The choices among some whose conditions hold. -/
def availableAmong (state : State) : List Choice → Logged PlayFault (List Choice)
  | [] => pure []
  | c :: cs => do
    let holds ← isAvailable c state
    let rest ← availableAmong state cs
    return if holds then c :: rest else rest

/-- The choices of the present scene whose conditions hold. -/
def available (st : Stage G) (s : Session) : Logged PlayFault (List Choice) := do
  availableAmong s.state (← Logged.lift (st.choices s))

/-- Whether the present scene has no choices. -/
def isEnding (st : Stage G) (s : Session) : Except PlayFault Bool :=
  (st.choices s).map List.isEmpty

/-- Texts with variables and mentions filled in. -/
def renderTexts (st : Stage G) (state : State) : List String → Logged PlayFault (List String)
  | [] => pure []
  | t :: ts => do
    let text ← (Expr.interpolate t state).mapError .number
    return fillMentions text st.displayName :: (← renderTexts st state ts)

/-- The texts of the present scene, with variables and mentions filled in. -/
def render (st : Stage G) (s : Session) : Logged PlayFault (List String) := do
  let scene ← Logged.lift (st.currentScene s)
  renderTexts st s.state (scene.nodes.filterMap Node.content?)

/-! ## Steps -/

/-- The choice with a number, counted from zero. -/
def choice? (cs : List Choice) (index : Int) : Option Choice :=
  if index < 0 then none else cs[index.toNat]?

/-- A failure unless the condition of a choice holds. -/
def requireAvailable (c : Choice) (state : State) : Logged PlayFault Unit := do
  let holds ← isAvailable c state
  if holds then pure () else Logged.fail (.unavailable c.text)

/-- The scene to which a choice leads: that of the first trigger that fires, if it is there, else
the choice's own target. -/
def destination (st : Stage G) (c : Choice) (state : State) : Logged PlayFault String := do
  match ← (InitialState.fired? st.initialState state).mapError .number with
  | none => return c.target
  | some scene =>
    -- A trigger that leads nowhere gives way to the target of the choice.
    if st.scenes.contains scene then return scene
    Logged.warn (.missingTriggerScene scene)
    return c.target

/-- The session after the choice with a number among all choices of the present scene. -/
def choose (st : Stage G) (s : Session) (index : Int) : Logged PlayFault Session := do
  let cs ← Logged.lift (st.choices s)
  let some c := choice? cs index | Logged.fail (.noChoice s.scene index)
  requireAvailable c s.state
  let state ← (Expr.execute c.assignment s.state).mapError .number
  let scene ← st.destination c state
  return { scene := scene, state := state, past := s.turn :: s.past }

end Stage

/-- The session one choice before. -/
def Session.undo (s : Session) : Except PlayFault Session :=
  match s.past with
  | [] => .error .nothingToUndo
  | t :: ts => .ok { scene := t.scene, state := t.state, past := ts }

/-! ## Facts -/

/-- A computation after another has a result only if both have one. -/
theorem Logged.result_bind_eq_ok {ε α β : Type} {x : Logged ε α} {f : α → Logged ε β} {b : β}
    (h : (x >>= f).result = .ok b) : ∃ a, x.result = .ok a ∧ (f a).result = .ok b := by
  cases hx : x.result with
  | error e => rw [result_bind_error hx] at h; exact absurd h (by simp)
  | ok a => exact ⟨a, rfl, by rw [result_bind_ok hx] at h; exact h⟩

/-- The turns before a choice are those of the session in which it was taken, that one included. -/
theorem Stage.past_of_choose {G : Type} {st : Stage G} {s t : Session} {index : Int}
    (h : (st.choose s index).result = .ok t) : t.past = s.turn :: s.past := by
  unfold Stage.choose at h
  obtain ⟨cs, _, h⟩ := Logged.result_bind_eq_ok h
  split at h
  · obtain ⟨_, _, h⟩ := Logged.result_bind_eq_ok h
    obtain ⟨_, _, h⟩ := Logged.result_bind_eq_ok h
    obtain ⟨_, _, h⟩ := Logged.result_bind_eq_ok h
    cases h
    rfl
  · exact absurd h (by simp [Logged.fail])

/-- Taking a choice back gives the session before it. -/
theorem Stage.undo_choose {G : Type} {st : Stage G} {s t : Session} {index : Int}
    (h : (st.choose s index).result = .ok t) : t.undo = .ok s := by
  have hp := past_of_choose h
  unfold Session.undo
  rw [hp]
  rfl

end Storyline
