import Storyline.Proofs.Play.Safety

/-!
# The variables of a session

An assignment writes to a variable that is there or puts a new one behind all others; it takes none
away and changes no order. So whatever a reader does, the variables that a story declares are there,
first and in the order of their declaration, and a trigger always finds the variable that it is on.

## Main definitions

* `IsWordName`: the names that an assignment can write to
* `State.Extends`: variables that begin with declared ones

## Main results

* `extends_insert`: a write to such a name takes no variable away
* `extends_execute`: neither does an instruction, whatever of it is left out
* `play_keeps_variables`: nor does any row of moves
-/

namespace Storyline

open Text

/-- Whether a name is made of word characters, of which there is at least one. -/
def IsWordName (name : String) : Prop :=
  name ≠ "" ∧ ∀ c ∈ name.toList, isWord c = true

/-- Variables that begin with declared ones, in their order; the others have words for names. -/
def State.Extends (declared : List String) (s : State) : Prop :=
  ∃ added, s.keys = declared ++ added ∧ ∀ name ∈ added, IsWordName name

namespace Expr

variable {declared : List String} {s : State}

/-- What an assignment writes to has a word for a name. -/
theorem isWordName_of_statement? {text name expression : List Char}
    (h : statement? text = some (name, expression)) : IsWordName (String.ofList name) := by
  unfold statement? at h
  split at h
  · next left right _ =>
    dsimp only at h
    split at h
    · next hname =>
      cases h
      rw [Bool.and_eq_true, Bool.and_eq_true, List.all_eq_true] at hname
      obtain ⟨⟨hne, hword⟩, -⟩ := hname
      refine ⟨fun hempty => ?_, by rwa [String.toList_ofList]⟩
      have hnil : trim left = [] := by simpa using congrArg String.toList hempty
      simp [hnil] at hne
    · cases h
  · cases h

/-- A write to a name made of word characters takes no variable away. -/
theorem extends_insert (h : State.Extends declared s) {name : String} (hname : IsWordName name)
    (v : Scalar) : State.Extends declared (s.insert name v) := by
  obtain ⟨added, hkeys, hadded⟩ := h
  by_cases hmem : name ∈ s.keys
  · exact ⟨added, by rw [Mapping.keys_insert_of_mem hmem, hkeys], hadded⟩
  · refine ⟨added ++ [name], ?_, List.forall_mem_append.2 ⟨hadded, by simpa using hname⟩⟩
    rw [Mapping.keys_insert_of_not_mem hmem, hkeys, List.append_assoc]

theorem extends_executeStatement (h : State.Extends declared s) (text : List Char) :
    (executeStatement s text).result.Gives (State.Extends declared) := by
  unfold executeStatement
  split
  · -- what is no assignment is left out
    exact Except.gives_ok h
  · next name expression hstatement =>
    rw [Logged.result_bind]
    refine Except.gives_bind fun value => ?_
    cases value with
    | ok v => exact Except.gives_ok (extends_insert h (isWordName_of_statement? hstatement) v)
    | error w => exact Except.gives_ok h

/-- Assignments in turn take no variable away. -/
theorem extends_executeAll (h : State.Extends declared s) (texts : List (List Char)) :
    (executeAll s texts).result.Gives (State.Extends declared) := by
  induction texts generalizing s with
  | nil => exact Except.gives_ok h
  | cons text texts ih =>
    rw [executeAll, Logged.result_bind]
    exact (extends_executeStatement h text).bind fun t ht => ih ht

/-- **An instruction takes no variable away**, and what it adds has words for names. -/
theorem extends_execute (h : State.Extends declared s) (instruction : Option String) :
    (execute instruction s).result.Gives (State.Extends declared) := by
  cases instruction with
  | none => exact Except.gives_ok h
  | some text => exact extends_executeAll h (statements text.toList)

end Expr

/-! ## Runs -/

/-- A story begins with the variables that it declares. -/
theorem extends_runtime (s : InitialState) : State.Extends s.keys (InitialState.runtime s) :=
  ⟨[], by rw [InitialState.runtime, Mapping.keys_map, List.append_nil], List.forall_mem_nil _⟩

/-- A run keeps the declared variables in the present turn and in those of the past. -/
theorem Stage.extends_play {G : Type} (st : Stage G) (ms : List Move) :
    ∀ t ∈ (st.play st.begin ms).turn :: (st.play st.begin ms).past,
      State.Extends st.initialState.keys t.state := by
  refine play_induction
    (fun s => ∀ t ∈ s.turn :: s.past, State.Extends st.initialState.keys t.state) ?_ ?_ ?_ ms
  · exact List.forall_mem_cons.2 ⟨extends_runtime st.initialState, List.forall_mem_nil _⟩
  · intro s index t hs h
    obtain ⟨_, c, -, -, -, hstate, -, hpast⟩ := choose_cases h
    rw [hpast]
    exact List.forall_mem_cons.2
      ⟨Expr.extends_execute (hs s.turn List.mem_cons_self) c.assignment t.state hstate, hs⟩
  · intro s t hs h
    obtain ⟨u, us, hpast, rfl⟩ := undo_eq_ok h
    rw [hpast] at hs
    exact (List.forall_mem_cons.1 hs).2

/-- The variable of a trigger is declared. -/
theorem InitialState.mem_keys_of_mem_triggers {s : InitialState} {p : String × Trigger}
    (h : p ∈ InitialState.triggers s) : p.1 ∈ Mapping.keys s := by
  obtain ⟨q, hq, h⟩ := List.mem_filterMap.1 h
  obtain ⟨t, -, rfl⟩ := Option.map_eq_some_iff.1 h
  exact List.mem_map_of_mem hq

/-- **The declared variables are always there.** After any row of moves, some of which may fail, the
variables of the present turn and of every turn of the past are those that the story declares, in
the order of their declaration, and then others with words for names; each of them has a value, and
a value is a truth value, an integer, a double or a string. So whichever assignment is carried out
next, no trigger misses its variable. -/
theorem play_keeps_variables (g : Game) (ms : List Move) :
    ∀ t ∈ (g.stage.play g.stage.begin ms).turn :: (g.stage.play g.stage.begin ms).past,
      (∃ added, t.state.keys = g.initialState.keys ++ added ∧
        ∀ name ∈ added, name ≠ "" ∧ ∀ c ∈ name.toList, isWord c = true) ∧
      (∀ name ∈ t.state.keys, ∃ v : Scalar, t.state.get? name = some v) ∧
      ∀ assignment state, (Expr.execute assignment t.state).result = .ok state →
        ∀ p ∈ InitialState.triggers g.initialState, ∃ v : Scalar, state.get? p.1 = some v := by
  intro t ht
  have hextends := g.stage.extends_play ms t ht
  refine ⟨hextends, fun name => Mapping.exists_get?_of_mem_keys, fun assignment state h p hp => ?_⟩
  obtain ⟨added, hkeys, -⟩ := Expr.extends_execute hextends assignment state h
  refine Mapping.exists_get?_of_mem_keys ?_
  rw [hkeys]
  exact List.mem_append_left added (InitialState.mem_keys_of_mem_triggers hp)

/-- The trigger of the hit points of a hunt. -/
def wounded : Trigger :=
  { condition := "<= 0", scene := "start" }

/-- A hunt that counts the hit points down, next to an assignment that is none. -/
def hunt : Game :=
  { title := "Hunt"
    initialState := Mapping.ofList
      [("hp", .described { value := .int 3, trigger := some wounded }), ("gold", .plain (.int 0))]
    scenes := Mapping.ofList
      [("start",
        { id := "start"
          nodes := [.choice { text := "Track", target := "start",
                              assignment := some "seen = true, my key = 1, hp = hp - 1" }] })] }

/-- After a step back and forth the hunt goes on to an assignment with the trigger on its
variable. -/
theorem hunt_keeps_variables :
    (hunt.stage.play hunt.stage.begin [.choose 0, .undo, .choose 0]).state.keys =
        ["hp", "gold", "seen"] ∧
      ("hp", wounded) ∈ InitialState.triggers hunt.initialState ∧
      ∃ state, (Expr.execute (some "hp = hp - gold, gold = lost")
        (hunt.stage.play hunt.stage.begin [.choose 0, .undo, .choose 0]).state).result =
          .ok state ∧ ∃ v, state.get? "hp" = some v := by
  obtain ⟨state, hstate⟩ := Except.exists_of_isOk
    (x := (Expr.execute (some "hp = hp - gold, gold = lost")
      (hunt.stage.play hunt.stage.begin [.choose 0, .undo, .choose 0]).state).result)
    (by decide +kernel)
  have htrigger : ("hp", wounded) ∈ InitialState.triggers hunt.initialState := by decide
  exact ⟨by decide +kernel, htrigger, state, hstate,
    (play_keeps_variables hunt _ _ List.mem_cons_self).2.2 _ _ hstate _ htrigger⟩

end Storyline
