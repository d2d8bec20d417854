import Storyline.Proofs.Play.Safety

/-!
# Going back

The past of a session is a stack: a choice puts the session that it leaves on it, and going back
takes the latest one off. So a run in which the reader goes back and forth ends where the choices
that still stand lead when they are taken alone.

## Main definitions

* `Stage.replay`: choices taken one after another, with no way back
* `Stage.push`, `Stage.standing`: the choices that stand after a move, and after a row of moves

## Main results

* `replay_push`: a move keeps the session that of the choices that stand
* `play_eq_replay`: so does every row of moves
-/

namespace Storyline

namespace Stage

variable {G : Type}

/-- The session after choices from the beginning, the latest given first. -/
def replay (st : Stage G) : List Int → Except PlayFault Session
  | [] => .ok st.begin
  | index :: earlier => do (st.choose (← replay st earlier) index).result

/-- The choices that stand after a move, the latest first: a choice that succeeds is put in front,
and going back takes away the one in front. -/
def push (st : Stage G) (s : Session) (stack : List Int) (m : Move) : List Int :=
  -- A move that fails leaves the session as it is, and so the choices.
  match m, (st.move s m).result with
  | .choose index, .ok _ => index :: stack
  | .undo, .ok _ => stack.tail
  | _, .error _ => stack

/-- The choices that stand after a row of moves from a session in which some stand already. -/
def pushAll (st : Stage G) (s : Session) (stack : List Int) : List Move → List Int
  | [] => stack
  | m :: ms => pushAll st (st.after s m) (st.push s stack m) ms

/-- The choices that stand after a row of moves from the beginning, the latest first. -/
def standing (st : Stage G) (ms : List Move) : List Int :=
  st.pushAll st.begin [] ms

theorem push_of_error {st : Stage G} {s : Session} {m : Move} {f : PlayFault}
    (h : (st.move s m).result = .error f) (stack : List Int) : st.push s stack m = stack := by
  unfold push
  rw [h]
  cases m <;> rfl

theorem push_choose {st : Stage G} {s t : Session} {index : Int}
    (h : (st.choose s index).result = .ok t) (stack : List Int) :
    st.push s stack (.choose index) = index :: stack := by
  unfold push move
  rw [h]

theorem push_undo {st : Stage G} {s t : Session} (h : s.undo = .ok t) (stack : List Int) :
    st.push s stack .undo = stack.tail := by
  have hmove : (st.move s .undo).result = .ok t := h
  unfold push
  rw [hmove]

/-! ## Replaying -/

/-- What going back from a replayed session does: it takes the latest choice away, if there is
one. -/
theorem undo_of_replay {st : Stage G} {s : Session} {stack : List Int}
    (h : st.replay stack = .ok s) :
    (stack = [] ∧ s.undo = .error .nothingToUndo) ∨
      ∃ index earlier t, stack = index :: earlier ∧ st.replay earlier = .ok t ∧
        s.undo = .ok t := by
  cases stack with
  | nil =>
    cases h
    exact .inl ⟨rfl, rfl⟩
  | cons index earlier =>
    obtain ⟨t, ht, h⟩ := Except.bind_eq_ok_iff.1 h
    exact .inr ⟨index, earlier, t, rfl, ht, undo_choose h⟩

/-- **One move.** If a session is that of the choices that stand, so is the session after a move,
with the choices that stand then. -/
theorem replay_push {st : Stage G} {s : Session} {stack : List Int}
    (h : st.replay stack = .ok s) (m : Move) :
    st.replay (st.push s stack m) = .ok (st.after s m) := by
  cases hr : (st.move s m).result with
  | error f => rw [push_of_error hr, after_of_error hr, h]
  | ok t =>
    rw [after_of_ok hr]
    cases m with
    | choose index =>
      rw [push_choose hr]
      exact Except.bind_eq_ok_iff.2 ⟨s, h, hr⟩
    | undo =>
      rw [push_undo hr]
      have hundo : s.undo = .ok t := hr
      -- The session that going back gives is the one in which the choice in front was taken.
      rcases undo_of_replay h with ⟨-, herror⟩ | ⟨index, earlier, u, rfl, hu, hok⟩
      · rw [herror] at hundo
        cases hundo
      · rw [hok] at hundo
        cases hundo
        exact hu

/-- A row of moves keeps the session that of the choices that stand. -/
theorem replay_pushAll {st : Stage G} {s : Session} {stack : List Int}
    (h : st.replay stack = .ok s) (ms : List Move) :
    st.replay (st.pushAll s stack ms) = .ok (st.play s ms) := by
  -- A move changes the session and the choices together, so both are free in the induction.
  induction ms generalizing s stack with
  | nil => exact h
  | cons m ms ih => exact ih (replay_push h m)

theorem play_append (st : Stage G) (s : Session) (ms ns : List Move) :
    st.play s (ms ++ ns) = st.play (st.play s ms) ns :=
  List.foldl_append

/-- Replaying choices is a run without a way back. -/
theorem play_of_replay {st : Stage G} {stack : List Int} {s : Session}
    (h : st.replay stack = .ok s) : st.play st.begin (stack.reverse.map .choose) = s := by
  induction stack generalizing s with
  | nil =>
    cases h
    rfl
  | cons index earlier ih =>
    obtain ⟨t, ht, h⟩ := Except.bind_eq_ok_iff.1 h
    rw [List.reverse_cons, List.map_append, play_append, ih ht]
    exact after_of_ok (m := .choose index) h

end Stage

open Stage in
/-- **The past of a session is a stack to go back on.** After any row of moves, some of which may
fail, the session is the one to which the choices that stand lead when they are taken alone: each
of them succeeds, and so the session is reached without a way back. There is no way back from it
exactly when no choice stands, and going back after a choice leads to the session in which it was
taken. -/
theorem play_eq_replay {G : Type} (st : Stage G) (ms : List Move) :
    st.replay (st.standing ms) = .ok (st.play st.begin ms) ∧
      st.play st.begin ((st.standing ms).reverse.map .choose) = st.play st.begin ms ∧
      ((∃ f, (st.play st.begin ms).undo = .error f) ↔ st.standing ms = []) ∧
      ∀ (s t : Session) (index : Int),
        (st.choose s index).result = .ok t → t.undo = .ok s := by
  have hreplay : st.replay (st.standing ms) = .ok (st.play st.begin ms) :=
    replay_pushAll rfl ms
  refine ⟨hreplay, play_of_replay hreplay, ?_, fun s t index => undo_choose⟩
  rcases undo_of_replay hreplay with ⟨hempty, hundo⟩ | ⟨index, earlier, t, hstack, -, hundo⟩
  · exact ⟨fun _ => hempty, fun _ => ⟨_, hundo⟩⟩
  · constructor
    · rintro ⟨f, hf⟩
      rw [hundo] at hf
      cases hf
    · intro hempty
      rw [hempty] at hstack
      cases hstack

/-- The fight is lost by the only choice, which a trigger redirects; going back gives the fight. -/
theorem wolfFight_undo :
    ∃ t, (wolfFight.stage.choose wolfFight.stage.begin 0).result = .ok t ∧ t.scene = "death" ∧
      t.undo = .ok wolfFight.stage.begin := by
  have hscene : (wolfFight.stage.choose wolfFight.stage.begin 0).result.toOption.map
      Session.scene = some "death" := by decide +kernel
  cases hresult : (wolfFight.stage.choose wolfFight.stage.begin 0).result with
  | error f =>
    rw [hresult] at hscene
    cases hscene
  | ok t =>
    rw [hresult] at hscene
    exact ⟨t, rfl, Option.some.inj hscene, (play_eq_replay wolfFight.stage []).2.2.2 _ _ _ hresult⟩

end Storyline
