import Storyline.Play
import Storyline.Proofs.Outcome

/-!
# Runs of a session

A reader moves by taking choices and by going back. A move that fails leaves the session as
it is, so from the beginning of a story every row of moves leads to a session.

## Main definitions

* `Move`, `Stage.move`: a move, and what comes of it
* `Stage.after`, `Stage.play`: the session after a move, and after a row of moves

## Main results

* `choose_cases`: all that a successful choice can do
* `destination_cases`: a choice leads to its target or to the scene of a trigger
* `play_induction`: what holds at the beginning and survives every move holds always
-/

namespace Storyline

/-- A step of the reader: a choice, by its number, or the way back. -/
inductive Move where
  | choose (index : Int)
  | undo
  deriving Repr, DecidableEq

namespace Stage

variable {G : Type}

/-- The outcome of a move: the next session or the reason why there is none. -/
def move (st : Stage G) (s : Session) : Move → Logged PlayFault Session
  | .choose index => st.choose s index
  | .undo => Logged.lift s.undo

/-- The session after a move; a move that fails changes nothing. -/
def after (st : Stage G) (s : Session) (m : Move) : Session :=
  match (st.move s m).result with
  | .ok t => t
  | .error _ => s

/-- The session after a row of moves. -/
def play (st : Stage G) (s : Session) (ms : List Move) : Session :=
  ms.foldl st.after s

@[simp] theorem play_nil (st : Stage G) (s : Session) : st.play s [] = s := rfl

@[simp] theorem play_cons (st : Stage G) (s : Session) (m : Move) (ms : List Move) :
    st.play s (m :: ms) = st.play (st.after s m) ms := rfl

theorem after_of_ok {st : Stage G} {s t : Session} {m : Move}
    (h : (st.move s m).result = .ok t) : st.after s m = t := by
  unfold after
  rw [h]

theorem after_of_error {st : Stage G} {s : Session} {m : Move} {f : PlayFault}
    (h : (st.move s m).result = .error f) : st.after s m = s := by
  unfold after
  rw [h]

/-! ## What a choice does -/

theorem choices_eq_ok {st : Stage G} {s : Session} {cs : List Choice}
    (h : st.choices s = .ok cs) :
    ∃ scene, st.scenes.get? s.scene = some scene ∧ scene.choices = cs := by
  unfold choices currentScene at h
  cases hg : st.scenes.get? s.scene with
  | none => rw [hg] at h; cases h
  | some scene =>
    rw [hg] at h
    cases h
    exact ⟨scene, rfl, rfl⟩

/-- The choices of a scene that is there. -/
theorem choices_of_get? {st : Stage G} {s : Session} {scene : Scene G}
    (h : st.scenes.get? s.scene = some scene) : st.choices s = .ok scene.choices := by
  unfold choices currentScene
  rw [h]
  rfl

theorem mem_of_choice? {cs : List Choice} {index : Int} {c : Choice}
    (h : choice? cs index = some c) : c ∈ cs := by
  unfold choice? at h
  split at h
  · cases h
  · exact List.mem_of_getElem? h

/-- **All that a successful choice can do.** The choice belongs to the present scene and may be
taken there; its assignment gives the next variables, these decide the next scene, and the session
that is left becomes the latest turn of the past. -/
theorem choose_cases {st : Stage G} {s t : Session} {index : Int}
    (h : (st.choose s index).result = .ok t) :
    ∃ scene c, st.scenes.get? s.scene = some scene ∧ choice? scene.choices index = some c ∧
      (Expr.evaluate c.condition s.state).result = .ok true ∧
      (Expr.execute c.assignment s.state).result = .ok t.state ∧
      (st.destination c t.state).result = .ok t.scene ∧ t.past = s.turn :: s.past := by
  unfold choose at h
  obtain ⟨cs, hcs, h⟩ := Logged.result_bind_eq_ok h
  obtain ⟨scene, hscene, rfl⟩ := choices_eq_ok hcs
  split at h
  · next c hc =>
    obtain ⟨_, ha, h⟩ := Logged.result_bind_eq_ok h
    obtain ⟨state, hs, h⟩ := Logged.result_bind_eq_ok h
    obtain ⟨target, hd, h⟩ := Logged.result_bind_eq_ok h
    cases h
    refine ⟨scene, c, hscene, hc, ?_, Logged.result_mapError_eq_ok hs, hd, rfl⟩
    unfold requireAvailable at ha
    obtain ⟨holds, hh, ha⟩ := Logged.result_bind_eq_ok ha
    cases holds with
    | true => exact Logged.result_mapError_eq_ok hh
    | false => cases ha
  · cases h

theorem mem_of_firstFired? {state : State} {ts : List (String × Trigger)} {scene : String}
    (h : (firstFired? state ts).result = .ok (some scene)) : ∃ p ∈ ts, p.2.scene = scene := by
  induction ts with
  | nil => cases h
  | cons p ts ih =>
    unfold firstFired? at h
    obtain ⟨fires, -, h⟩ := Logged.result_bind_eq_ok h
    cases fires with
    | true =>
      cases h
      exact ⟨p, List.mem_cons_self, rfl⟩
    | false =>
      obtain ⟨q, hq, he⟩ := ih h
      exact ⟨q, List.mem_cons_of_mem _ hq, he⟩

/-- A choice leads to its own target, or to the scene of a trigger that is there. -/
theorem destination_cases {st : Stage G} {c : Choice} {state : State} {scene : String}
    (h : (st.destination c state).result = .ok scene) :
    scene = c.target ∨
      st.scenes.contains scene = true ∧
        ∃ p ∈ InitialState.triggers st.initialState, p.2.scene = scene := by
  unfold destination at h
  obtain ⟨fired, hf, h⟩ := Logged.result_bind_eq_ok h
  cases fired with
  | none =>
    cases h
    exact .inl rfl
  | some target =>
    dsimp only at h
    split at h
    · next hc =>
      cases h
      exact .inr ⟨hc, mem_of_firstFired? (Logged.result_mapError_eq_ok hf)⟩
    · cases h
      exact .inl rfl

theorem undo_eq_ok {s t : Session} (h : s.undo = .ok t) :
    ∃ u us, s.past = u :: us ∧ t = { scene := u.scene, state := u.state, past := us } := by
  unfold Session.undo at h
  cases hp : s.past with
  | nil => rw [hp] at h; cases h
  | cons u us =>
    rw [hp] at h
    cases h
    exact ⟨u, us, rfl, rfl⟩

/-! ## Invariants of runs -/

/-- What survives choices and steps back survives every move, successful or not. -/
theorem after_induction {st : Stage G} {Inv : Session → Prop} {s : Session} (m : Move)
    (hs : Inv s) (hchoose : ∀ index t, (st.choose s index).result = .ok t → Inv t)
    (hundo : ∀ t, s.undo = .ok t → Inv t) : Inv (st.after s m) := by
  cases hr : (st.move s m).result with
  | error f => rw [after_of_error hr]; exact hs
  | ok t =>
    rw [after_of_ok hr]
    cases m with
    | choose index => exact hchoose index t hr
    | undo => exact hundo t hr

/-- What holds at the beginning and survives every move holds of every session that is played. -/
theorem play_induction {st : Stage G} (Inv : Session → Prop) {s : Session} (hs : Inv s)
    (hchoose : ∀ s index t, Inv s → (st.choose s index).result = .ok t → Inv t)
    (hundo : ∀ s t, Inv s → s.undo = .ok t → Inv t) (ms : List Move) : Inv (st.play s ms) := by
  induction ms generalizing s with
  | nil => exact hs
  | cons m ms ih =>
    rw [play_cons]
    exact ih (after_induction m hs (fun i t => hchoose s i t hs) fun t => hundo s t hs)

end Stage

end Storyline
