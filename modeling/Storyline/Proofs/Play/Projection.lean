import Storyline.Proofs.Mapping
import Storyline.Proofs.Play.Run

/-!
# Playing the playable form

A reader's device plays a story without what it was made from. Of a story, play reads the choices
and the texts of each scene, the variables at the start and the names of the characters; the
playable form has the same of each, so the two are played alike.

## Main definitions

* `Stage.Alike`: two stages of which play reads the same

## Main results

* `Stage.Alike.move_eq`, `Stage.Alike.play_eq`: moves on stages that are alike
* `alike_playable`: a story and its playable form are alike
* `play_playable`: every run of a story and of its playable form gives the same
-/

namespace Storyline

namespace Stage

variable {G H : Type}

/-- What the reader is offered and shown of a scene: its choices and its texts. -/
def offered (scene : Scene G) : List Choice × List String :=
  (scene.choices, scene.nodes.filterMap Node.content?)

/-- Two stages of which play reads the same. -/
structure Alike (st : Stage G) (su : Stage H) : Prop where
  start : st.start = su.start
  initialState : st.initialState = su.initialState
  displayName : st.displayName = su.displayName
  scenes : ∀ key, (st.scenes.get? key).map offered = (su.scenes.get? key).map offered

namespace Alike

variable {st : Stage G} {su : Stage H}

theorem begin_eq (h : st.Alike su) : st.begin = su.begin := by
  unfold Stage.begin
  rw [h.start, h.initialState]

theorem contains_eq (h : st.Alike su) (key : String) :
    st.scenes.contains key = su.scenes.contains key := by
  have := congrArg Option.isSome (h.scenes key)
  rwa [Option.isSome_map, Option.isSome_map] at this

/-- The present scene offers the same on both stages, or is missing on both. -/
theorem currentScene_eq (h : st.Alike su) (s : Session) :
    (st.currentScene s).map offered = (su.currentScene s).map offered := by
  have hs := h.scenes s.scene
  unfold currentScene
  cases ht : st.scenes.get? s.scene <;> cases hu : su.scenes.get? s.scene <;>
    rw [ht, hu] at hs
  · rfl
  · cases hs
  · cases hs
  · exact congrArg Except.ok (Option.some.inj hs)

theorem choices_eq (h : st.Alike su) (s : Session) : st.choices s = su.choices s := by
  have hs := h.currentScene_eq s
  unfold choices
  cases ht : st.currentScene s <;> cases hu : su.currentScene s <;> rw [ht, hu] at hs
  · cases hs
    rfl
  · cases hs
  · cases hs
  · exact congrArg Except.ok (congrArg Prod.fst (Except.ok.inj hs))

theorem available_eq (h : st.Alike su) (s : Session) : st.available s = su.available s := by
  unfold available
  rw [h.choices_eq]

theorem isEnding_eq (h : st.Alike su) (s : Session) : st.isEnding s = su.isEnding s := by
  unfold isEnding
  rw [h.choices_eq]

theorem renderTexts_eq (h : st.Alike su) (state : State) (ts : List String) :
    st.renderTexts state ts = su.renderTexts state ts := by
  induction ts with
  | nil => rfl
  | cons t ts ih =>
    unfold renderTexts
    rw [ih, h.displayName]

theorem render_eq (h : st.Alike su) (s : Session) : st.render s = su.render s := by
  have hs := h.currentScene_eq s
  unfold render
  cases ht : st.currentScene s <;> cases hu : su.currentScene s <;> rw [ht, hu] at hs
  · cases hs
    rfl
  · cases hs
  · cases hs
  · next scene other =>
    have ho : offered scene = offered other := Except.ok.inj hs
    show st.renderTexts s.state (offered scene).2 = su.renderTexts s.state (offered other).2
    rw [ho, h.renderTexts_eq]

theorem destination_eq (h : st.Alike su) (c : Choice) (state : State) :
    st.destination c state = su.destination c state := by
  unfold destination
  rw [h.initialState]
  simp only [h.contains_eq]

theorem choose_eq (h : st.Alike su) (s : Session) (index : Int) :
    st.choose s index = su.choose s index := by
  unfold choose
  rw [h.choices_eq]
  simp only [h.destination_eq]

/-- A move has one outcome on stages that are alike, warnings and faults included. -/
theorem move_eq (h : st.Alike su) (s : Session) (m : Move) : st.move s m = su.move s m := by
  cases m with
  | choose index => exact h.choose_eq s index
  | undo => rfl

/-- A row of moves leads to one session on stages that are alike. -/
theorem play_eq (h : st.Alike su) (s : Session) (ms : List Move) :
    st.play s ms = su.play s ms := by
  induction ms generalizing s with
  | nil => rfl
  | cons m ms ih =>
    rw [play_cons, play_cons, ih]
    unfold after
    rw [h.move_eq]

end Alike

end Stage

/-! ## The playable form -/

theorem offered_map {G H : Type} (f : G → H) (scene : Scene G) :
    Stage.offered (scene.map f) = Stage.offered scene := by
  unfold Stage.offered Scene.choices Scene.map
  rw [List.filterMap_map, List.filterMap_map]
  simp only [Function.comp_def, Node.choice?_map, Node.content?_map]

/-- Characters without names in them are as good as no characters. -/
theorem get?_nonEmpty? {α : Type} (m : Option (Mapping α)) (key : String) :
    (nonEmpty? m).bind (·.get? key) = m.bind (·.get? key) := by
  cases m with
  | none => rfl
  | some m =>
    obtain ⟨ps, hn⟩ := m
    cases ps with
    | nil => rfl
    | cons p ps => rfl

theorem displayName_playable (g : Game) : g.stage.displayName = g.playable.stage.displayName := by
  funext key
  show (g.making.characters.bind (·.get? key)).map (·.name) =
    (((nonEmpty? g.making.characters).map (Mapping.map Character.playable)).bind
      (·.get? key)).map (·.name)
  rw [← get?_nonEmpty?]
  cases nonEmpty? g.making.characters with
  | none => rfl
  | some m =>
    show (m.get? key).map (·.name) = ((m.map Character.playable).get? key).map (·.name)
    rw [Mapping.get?_map, Option.map_map]
    rfl

/-- A story and its playable form are alike. -/
theorem alike_playable (g : Game) : g.stage.Alike g.playable.stage where
  start := rfl
  initialState := rfl
  displayName := displayName_playable g
  scenes key := by
    show (g.scenes.get? key).map Stage.offered =
      ((g.scenes.map (Scene.map Generated.playable)).get? key).map Stage.offered
    rw [Mapping.get?_map, Option.map_map]
    congr 1
    exact (funext fun scene => offered_map Generated.playable scene).symm

/-- **Every run of a story and of its playable form gives the same.** Any row of moves, some of
which may fail, leads both to one session; and in every session a further move has one outcome on
both, fault and warnings included, and both offer, allow, end and render the same. -/
theorem play_playable (g : Game) (ms : List Move) :
    g.stage.play g.stage.begin ms = g.playable.stage.play g.playable.stage.begin ms ∧
      ∀ s, (∀ m, g.stage.move s m = g.playable.stage.move s m) ∧
        g.stage.choices s = g.playable.stage.choices s ∧
        g.stage.available s = g.playable.stage.available s ∧
        g.stage.isEnding s = g.playable.stage.isEnding s ∧
        g.stage.render s = g.playable.stage.render s := by
  have h := alike_playable g
  refine ⟨by rw [← h.begin_eq, h.play_eq], fun s => ?_⟩
  exact ⟨h.move_eq s, h.choices_eq s, h.available_eq s, h.isEnding_eq s, h.render_eq s⟩

end Storyline
