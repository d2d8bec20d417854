import Mathlib
import Storyline.Lint.Story
import Storyline.Proofs.Mapping
import Storyline.Proofs.Play.Run

/-!
# Stories without dangling references

A check of a story without errors says that every scene to which a choice or a trigger leads is
there, and so is the scene with which the story starts. Then no row of moves leads out of the
story, and no turn of the past lies outside of it.

## Main definitions

* `Game.WellReferenced`: every scene that is named is there
* `Session.Within`: the present scene and those of the past are among some

## Main results

* `hasErrors_checkGame`: a check finds errors exactly when a reference dangles
* `Stage.within_of_choose`: a run stays among scenes out of which no choice leads
* `within_play`: no row of moves leads out of a well referenced story
* `play_stays_in_story`: a story that is checked without errors never misses a scene
-/

namespace Storyline

/-- Every scene that is named is there: the start, and the targets of choices and triggers. -/
def Game.WellReferenced (g : Game) : Prop :=
  g.scenes.contains g.start = true ∧ ∀ scene ∈ g.targets, g.scenes.contains scene = true

/-- The present scene and those of the past are among some. -/
def Session.Within (keys : List String) (s : Session) : Prop :=
  s.scene ∈ keys ∧ ∀ t ∈ s.past, t.scene ∈ keys

namespace Lint

/-! ## What a check finds -/

/-- Findings of which none is an error hold no error. -/
theorem hasErrors_map_eq_false {α : Type} {f : α → Issue} (hf : ∀ a, (f a).isError = false)
    (xs : List α) : hasErrors (xs.map f) = false := by
  unfold hasErrors
  rw [List.any_map, List.any_eq_false]
  intro a _ he
  exact absurd ((hf a).symm.trans he) Bool.false_ne_true

theorem hasErrors_append (xs ys : List Issue) :
    hasErrors (xs ++ ys) = (hasErrors xs || hasErrors ys) :=
  List.any_append

theorem hasErrors_flatMap {α : Type} (xs : List α) (f : α → List Issue) :
    hasErrors (xs.flatMap f) = xs.any fun x => hasErrors (f x) :=
  List.any_flatMap

/-- Of all that a check finds in a choice, only a target that is not there is an error. -/
theorem hasErrors_checkChoice (g : Game) (scene : String) (c : Choice) :
    hasErrors (checkChoice g scene c) = !g.scenes.contains c.target := by
  have hcondition : ∀ o : Option String, hasErrors ((o.map Finding.badCondition).toList.map
      fun f => { finding := f, scene := some scene }) = false := by
    intro o
    cases o <;> rfl
  have hassignment : ∀ ws : List Warning, hasErrors ((ws.map Finding.badAssignment).map
      fun f => { finding := f, scene := some scene }) = false := by
    intro ws
    rw [List.map_map]
    exact hasErrors_map_eq_false (fun _ => rfl) ws
  unfold checkChoice
  rw [List.map_append, List.map_append, hasErrors_append, hasErrors_append, hcondition,
    hassignment, Bool.or_false, Bool.or_false]
  cases g.scenes.contains c.target <;> rfl

/-- In a node only a choice can be an error. -/
theorem hasErrors_checkNode (g : Game) (scene : String) (n : Node Generated) :
    hasErrors (checkNode g scene n) = n.choice?.any fun c => !g.scenes.contains c.target := by
  cases n with
  | choice c => exact hasErrors_checkChoice g scene c
  | text content narration => exact hasErrors_map_eq_false (fun _ => rfl) _
  | generated media =>
    cases media with
    | image prompt character characters url => exact hasErrors_map_eq_false (fun _ => rfl) _
    | _ => rfl
  | _ => rfl

/-- Of all that a check finds in a variable, only a trigger scene that is not there is an error. -/
theorem hasErrors_checkVariable {g : Game} {name : String} {v : InitialValue}
    {issues : List Issue} (h : checkVariable g name v = .ok issues) :
    hasErrors issues = v.trigger?.any fun t => !g.scenes.contains t.scene := by
  unfold checkVariable at h
  cases ht : v.trigger? with
  | none =>
    rw [ht] at h
    cases h
    rfl
  | some t =>
    rw [ht] at h
    obtain ⟨condition, -, h⟩ := Except.bind_eq_ok_iff.1 h
    cases h
    rw [List.map_append, hasErrors_append]
    have hbad : ∀ o : Option String, hasErrors ((o.map (Finding.badTrigger name)).toList.map
        fun f => { finding := f }) = false := by
      intro o
      cases o <;> rfl
    rw [hbad, Bool.or_false, Option.any_some]
    cases g.scenes.contains t.scene <;> rfl

/-- The variables are without errors exactly when the scenes of their triggers are there. -/
theorem hasErrors_checkVariables {g : Game} {ps : List (String × InitialValue)}
    {found : List (List Issue)}
    (h : List.Forall₂ (fun p issues => checkVariable g p.1 p.2 = .ok issues) ps found) :
    hasErrors found.flatten =
      (ps.filterMap fun p => p.2.trigger?.map (·.scene)).any fun s => !g.scenes.contains s := by
  induction h with
  | nil => rfl
  | @cons p issues ps found hp _ ih =>
    rw [List.flatten_cons, hasErrors_append, ih, hasErrors_checkVariable hp, List.filterMap_cons]
    cases p.2.trigger? with
    | none => rfl
    | some t => rfl

/-- The nodes are without errors exactly when the targets of their choices are there. -/
theorem hasErrors_checkNodes (g : Game) (scenes : List (Scene Generated)) :
    hasErrors (scenes.flatMap fun s => s.nodes.flatMap (checkNode g s.id)) =
      (scenes.flatMap fun s => s.choices.map (·.target)).any fun s => !g.scenes.contains s := by
  rw [hasErrors_flatMap, List.any_flatMap]
  congr 1
  funext s
  rw [hasErrors_flatMap, List.any_map, Scene.choices, List.any_filterMap]
  congr 1
  funext n
  rw [hasErrors_checkNode]
  cases n.choice? <;> rfl

/-- **A check finds errors exactly when a reference dangles.** -/
theorem hasErrors_checkGame {g : Game} {issues : List Issue} (h : checkGame g = .ok issues) :
    hasErrors issues = false ↔ g.WellReferenced := by
  unfold checkGame at h
  obtain ⟨found, hfound, h⟩ := Except.bind_eq_ok_iff.1 h
  cases h
  have hvalues := hasErrors_checkVariables (Except.mapM_eq_ok_iff.1 hfound)
  rw [hasErrors_append, hasErrors_append, hasErrors_append, hasErrors_checkNodes, hvalues,
    hasErrors_map_eq_false (fun _ => rfl), Bool.or_false, Bool.or_assoc, ← List.any_append]
  unfold Game.WellReferenced Game.targets Game.choiceTargets InitialState.triggerScenes
    Mapping.values
  rw [List.filterMap_map, Bool.or_eq_false_iff, List.any_eq_false]
  refine and_congr ?_ ?_
  · by_cases hstart : g.scenes.contains g.start = true
    · rw [if_pos hstart]
      exact iff_of_true rfl hstart
    · rw [if_neg hstart]
      exact iff_of_false (fun he => Bool.false_ne_true he.symm) hstart
  · simp

end Lint

/-! ## What a run keeps -/

theorem Game.target_mem_targets {g : Game} {key : String} {scene : Scene Generated} {c : Choice}
    (hs : g.scenes.get? key = some scene) (hc : c ∈ scene.choices) : c.target ∈ g.targets :=
  List.mem_append_left _
    (List.mem_flatMap.2 ⟨scene, Mapping.mem_values_of_get? hs, List.mem_map_of_mem hc⟩)

/-- A choice in a well referenced story leads to a scene that is there. -/
theorem scene_of_choose {g : Game} (hg : g.WellReferenced) {s t : Session} {index : Int}
    (h : (g.stage.choose s index).result = .ok t) : t.scene ∈ g.scenes.keys := by
  obtain ⟨scene, c, hs, hc, -, -, hd, -⟩ := Stage.choose_cases h
  apply Mapping.contains_iff_mem_keys.1
  rcases Stage.destination_cases hd with he | ⟨hin, -⟩
  · rw [he]
    exact hg.2 _ (Game.target_mem_targets hs (Stage.mem_of_choice? hc))
  · exact hin

/-- A run stays among scenes to which the start belongs and out of which no choice leads. -/
theorem Stage.within_of_choose {G : Type} {st : Stage G} {keys : List String}
    (hstart : st.start ∈ keys)
    (hchoose : ∀ s index t, (st.choose s index).result = .ok t → t.scene ∈ keys)
    (ms : List Move) : (st.play st.begin ms).Within keys := by
  refine play_induction (Session.Within keys) ?_ ?_ ?_ ms
  · exact ⟨hstart, fun _ h => by cases h⟩
  · intro s index t hs h
    obtain ⟨-, -, -, -, -, -, -, hpast⟩ := choose_cases h
    refine ⟨hchoose s index t h, ?_⟩
    rw [hpast]
    exact List.forall_mem_cons.2 hs
  · intro s t hs h
    obtain ⟨u, us, hp, rfl⟩ := undo_eq_ok h
    exact List.forall_mem_cons.1 (hp ▸ hs.2)

/-- No row of moves leads out of a well referenced story. -/
theorem within_play {g : Game} (hg : g.WellReferenced) (ms : List Move) :
    (g.stage.play g.stage.begin ms).Within g.scenes.keys :=
  Stage.within_of_choose (Mapping.contains_iff_mem_keys.1 hg.1)
    (fun _ _ _ h => scene_of_choose hg h) ms

theorem error_of_renderTexts {G : Type} {st : Stage G} {state : State} {ts : List String}
    {e : PlayFault} (h : (st.renderTexts state ts).result = .error e) : ∃ f, .number f = e := by
  induction ts with
  | nil => cases h
  | cons t ts ih =>
    unfold Stage.renderTexts at h
    rcases Logged.result_bind_eq_error h with h | ⟨_, -, h⟩
    · obtain ⟨f, -, he⟩ := Logged.result_mapError_eq_error h
      exact ⟨f, he⟩
    · rcases Logged.result_bind_eq_error h with h | ⟨_, -, h⟩
      · exact ih h
      · cases h

/-- In a scene that is there rendering reports no missing scene. -/
theorem render_ne_missingScene {G : Type} {st : Stage G} {s : Session} {scene : Scene G}
    (h : st.scenes.get? s.scene = some scene) (name : String) :
    (st.render s).result ≠ .error (.missingScene name) := by
  intro he
  unfold Stage.render Stage.currentScene at he
  rw [h] at he
  obtain ⟨f, hf⟩ := error_of_renderTexts he
  cases hf

/-- **A story that is checked without errors never leaves itself.** After any row of moves, some
of which may fail, the present scene and every scene of the past are scenes of the story; so its
choices are known, it is known whether the story ends there, and no rendering misses a scene. -/
theorem play_stays_in_story {g : Game} {issues : List Lint.Issue}
    (hcheck : Lint.checkGame g = .ok issues) (hclean : Lint.hasErrors issues = false)
    (ms : List Move) :
    (g.stage.play g.stage.begin ms).scene ∈ g.scenes.keys ∧
      (∀ t ∈ (g.stage.play g.stage.begin ms).past, t.scene ∈ g.scenes.keys) ∧
      (∃ cs, g.stage.choices (g.stage.play g.stage.begin ms) = .ok cs ∧
        g.stage.isEnding (g.stage.play g.stage.begin ms) = .ok cs.isEmpty) ∧
      ∀ name, (g.stage.render (g.stage.play g.stage.begin ms)).result ≠
        .error (.missingScene name) := by
  have hin := within_play ((Lint.hasErrors_checkGame hcheck).1 hclean) ms
  obtain ⟨scene, hscene⟩ :=
    Option.isSome_iff_exists.1 (Mapping.contains_iff_mem_keys.2 hin.1)
  have hchoices : g.stage.choices (g.stage.play g.stage.begin ms) = .ok scene.choices :=
    Stage.choices_of_get? hscene
  refine ⟨hin.1, hin.2, ⟨scene.choices, hchoices, ?_⟩, render_ne_missingScene hscene⟩
  unfold Stage.isEnding
  rw [hchoices]
  rfl

/-- A fight that is lost when the trigger of the hit points fires. -/
def wolfFight : Game :=
  { title := "Wolf"
    initialState := Mapping.ofList [("hp", .described
      { value := .int 3, trigger := some { condition := "<= 0", scene := "death" } })]
    scenes := Mapping.ofList
      [("start",
        { id := "start"
          nodes := [.text "A @wolf." none,
            .choice { text := "Fight", target := "start", condition := some "hp > 0",
                      assignment := some "hp = hp - 3" }] }),
      ("death", { id := "death", nodes := [] })] }

/-- The check of the fight reports no error, and a run with failing moves ends in the story. -/
theorem wolfFight_stays_in_story :
    ∃ issues, Lint.checkGame wolfFight = .ok issues ∧ Lint.hasErrors issues = false ∧
      (wolfFight.stage.play wolfFight.stage.begin
        [.undo, .choose 0, .choose 0, .undo, .choose 7, .choose 0]).scene ∈
          wolfFight.scenes.keys := by
  have hcheck : ∃ issues, Lint.checkGame wolfFight = .ok issues ∧
      Lint.hasErrors issues = false := ⟨_, by cbv, by decide⟩
  obtain ⟨issues, hissues, hclean⟩ := hcheck
  exact ⟨issues, hissues, hclean, (play_stays_in_story hissues hclean _).1⟩

end Storyline
