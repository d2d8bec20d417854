import Storyline.Proofs.Play.Safety

/-!
# Scenes that nothing leads to

A check of a story calls a scene an orphan if it is neither the start nor the target of a choice or
of a trigger. A move leads nowhere else, whatever the variables have become by then, so an orphan
is not played: no row of moves leads to it, and no turn of the past lies in it.

## Main results

* `orphan_mem_checkGame_iff`: which scenes a check calls orphans
* `scene_mem_targets_of_choose`: a choice leads to the target of a choice or of a trigger
* `play_avoids_orphans`: an orphan is never played
-/

namespace Storyline

/-! ## What is called an orphan -/

namespace Lint

variable {g : Game} {i : Issue} {id : String}

theorem finding_of_mem_checkChoice {scene : String} {c : Choice}
    (h : i ∈ checkChoice g scene c) : i.finding ≠ .orphan id := by
  obtain ⟨f, hf, rfl⟩ := List.mem_map.1 h
  rcases List.mem_append.1 hf with hf | hf
  · rcases List.mem_append.1 hf with hf | hf
    · split at hf
      · cases hf
      · rw [List.mem_singleton.1 hf]
        exact Finding.noConfusion
    · obtain ⟨problem, -, rfl⟩ := Option.map_eq_some_iff.1 (Option.mem_toList.1 hf)
      exact Finding.noConfusion
  · obtain ⟨w, -, rfl⟩ := List.mem_map.1 hf
    exact Finding.noConfusion

theorem finding_of_mem_checkNode {scene : String} {n : Node Generated}
    (h : i ∈ checkNode g scene n) : i.finding ≠ .orphan id := by
  cases n with
  | choice c => exact finding_of_mem_checkChoice h
  | text content narration =>
    obtain ⟨name, -, rfl⟩ := List.mem_map.1 h
    exact Finding.noConfusion
  | generated media =>
    cases media with
    | image prompt character characters url =>
      obtain ⟨name, -, rfl⟩ := List.mem_map.1 h
      exact Finding.noConfusion
    | _ => cases h
  | _ => cases h

theorem finding_of_mem_checkVariable {name : String} {v : InitialValue} {issues : List Issue}
    (h : checkVariable g name v = .ok issues) (hi : i ∈ issues) : i.finding ≠ .orphan id := by
  unfold checkVariable at h
  cases ht : v.trigger? with
  | none =>
    rw [ht] at h
    cases h
    cases hi
  | some t =>
    rw [ht] at h
    obtain ⟨condition, -, h⟩ := Except.bind_eq_ok_iff.1 h
    cases h
    obtain ⟨f, hf, rfl⟩ := List.mem_map.1 hi
    rcases List.mem_append.1 hf with hf | hf
    · split at hf
      · cases hf
      · rw [List.mem_singleton.1 hf]
        exact Finding.noConfusion
    · obtain ⟨problem, -, rfl⟩ := Option.map_eq_some_iff.1 (Option.mem_toList.1 hf)
      exact Finding.noConfusion

/-- A check calls exactly those scenes orphans that are neither the start nor a target. -/
theorem orphan_mem_checkGame_iff {issues : List Issue} (h : checkGame g = .ok issues) :
    .orphan id ∈ issues.map (·.finding) ↔ id ∈ g.scenes.keys ∧ id ∉ g.start :: g.targets := by
  have horphan : isOrphan g id = true ↔ id ∉ g.start :: g.targets := by
    simp [isOrphan]
  unfold checkGame at h
  obtain ⟨found, hfound, h⟩ := Except.bind_eq_ok_iff.1 h
  cases h
  constructor
  · intro hmem
    obtain ⟨i, hi, hid⟩ := List.mem_map.1 hmem
    rcases List.mem_append.1 hi with hi | hi
    · -- What is found before the last part is something else.
      exfalso
      rcases List.mem_append.1 hi with hi | hi
      · rcases List.mem_append.1 hi with hi | hi
        · split at hi
          · cases hi
          · rw [List.mem_singleton.1 hi] at hid
            cases hid
        · obtain ⟨s, -, hi⟩ := List.mem_flatMap.1 hi
          obtain ⟨n, -, hi⟩ := List.mem_flatMap.1 hi
          exact finding_of_mem_checkNode hi hid
      · obtain ⟨part, hpart, hi⟩ := List.mem_flatten.1 hi
        obtain ⟨p, -, hp⟩ := Except.exists_of_mem_mapM hfound hpart
        exact finding_of_mem_checkVariable hp hi hid
    · obtain ⟨name, hname, rfl⟩ := List.mem_map.1 hi
      cases hid
      obtain ⟨hkey, ho⟩ := List.mem_filter.1 hname
      exact ⟨hkey, horphan.1 ho⟩
  · rintro ⟨hkey, ho⟩
    refine List.mem_map.2 ⟨{ finding := .orphan id, scene := some id }, ?_, rfl⟩
    refine List.mem_append_right _ (List.mem_map.2 ⟨id, ?_, rfl⟩)
    exact List.mem_filter.2 ⟨hkey, horphan.2 ho⟩

end Lint

/-! ## Where a run can go -/

theorem InitialState.mem_triggerScenes {s : InitialState} {p : String × Trigger}
    (h : p ∈ InitialState.triggers s) : p.2.scene ∈ InitialState.triggerScenes s := by
  obtain ⟨q, hq, h⟩ := List.mem_filterMap.1 h
  obtain ⟨t, ht, rfl⟩ := Option.map_eq_some_iff.1 h
  refine List.mem_filterMap.2 ⟨q.2, List.mem_map_of_mem hq, ?_⟩
  show (q.2.info?.bind (·.trigger)).map (·.scene) = some t.scene
  rw [ht]
  rfl

/-- A choice leads to the target of a choice or of a trigger. -/
theorem scene_mem_targets_of_choose {g : Game} {s t : Session} {index : Int}
    (h : (g.stage.choose s index).result = .ok t) : t.scene ∈ g.targets := by
  obtain ⟨scene, c, hs, hc, -, -, hd, -⟩ := Stage.choose_cases h
  rcases Stage.destination_cases hd with he | ⟨-, p, hp, he⟩
  · rw [he]
    exact Game.target_mem_targets hs (Stage.mem_of_choice? hc)
  · rw [← he]
    exact List.mem_append_right _ (InitialState.mem_triggerScenes hp)

/-- A run stays among the start and the targets. -/
theorem within_targets (g : Game) (ms : List Move) :
    (g.stage.play g.stage.begin ms).Within (g.start :: g.targets) :=
  Stage.within_of_choose List.mem_cons_self
    (fun _ _ _ h => List.mem_cons_of_mem _ (scene_mem_targets_of_choose h)) ms

/-- **An orphan is never played.** After any row of moves, some of which may fail, neither the
present scene nor a scene of the past is one that a check of the story calls an orphan. -/
theorem play_avoids_orphans {g : Game} {issues : List Lint.Issue} {id : String}
    (hcheck : Lint.checkGame g = .ok issues) (horphan : .orphan id ∈ issues.map (·.finding))
    (ms : List Move) :
    (g.stage.play g.stage.begin ms).scene ≠ id ∧
      ∀ t ∈ (g.stage.play g.stage.begin ms).past, t.scene ≠ id := by
  have hnot := ((Lint.orphan_mem_checkGame_iff hcheck).1 horphan).2
  obtain ⟨hscene, hpast⟩ := within_targets g ms
  exact ⟨ne_of_mem_of_not_mem hscene hnot, fun t ht => ne_of_mem_of_not_mem (hpast t ht) hnot⟩

/-- The fight, with a scene besides that leads to its start and to which nothing leads. -/
def millFight : Game :=
  { wolfFight with
    scenes := wolfFight.scenes.insert "mill"
      { id := "mill", nodes := [.choice { text := "Leave", target := "start" }] } }

/-- The mill is an orphan, and a run that goes back and loses is never in it. -/
theorem millFight_avoids_mill :
    ∃ issues, Lint.checkGame millFight = .ok issues ∧
      .orphan "mill" ∈ issues.map (·.finding) ∧
      (millFight.stage.play millFight.stage.begin
        [.choose 0, .undo, .choose 1, .choose 0]).scene ≠ "mill" := by
  have hcheck : ∃ issues, Lint.checkGame millFight = .ok issues ∧
      .orphan "mill" ∈ issues.map (·.finding) := ⟨_, by cbv, by decide⟩
  obtain ⟨issues, hissues, horphan⟩ := hcheck
  exact ⟨issues, hissues, horphan, (play_avoids_orphans hissues horphan _).1⟩

end Storyline
