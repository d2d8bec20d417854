import Storyline.Proofs.Script.Nodes

/-!
# Compiled scripts

What a script that becomes a story consists of: its front matter and its scenes can be read, and
each scene that is added to those before is the scene of its draft. A text is parsed to the story of
the script that it is, if to any, with the warnings that the script gives.

## Main results

* `result_addScene`: one more scene
* `parts_of_compile`, `compile_of_parts`: the parts of a script that has a story, and its story from
  them
* `compile_eq_ok`: its scenes and its warnings
* `compile_of_parse`, `parse_of_parse`, `warnings_of_parse`: parsing against compiling
* `exists_parts_of_parse`, `exists_parse`: a story has front matter and scenes, and what has them is
  a story
-/

namespace Storyline.Script

variable {strict : Bool} {source : String} {g : Game}

/-- Whether a scene has the name of another or not, it is added in the same way. -/
theorem result_addScene (scenes : Mapping (Scene Generated)) (d : Draft) :
    (addScene scenes d).result = (scene d).result.map (scenes.insert d.id) := by
  have hinsert : (scene d >>= fun s => pure (scenes.insert d.id s)).result =
      (scene d).result.map (scenes.insert d.id) := by
    rw [Logged.result_bind]
    cases (scene d).result <;> rfl
  unfold addScene
  split
  · rw [Logged.result_bind_ok (Logged.result_warn _)]
    exact hinsert
  · exact hinsert

theorem split?_of_parts {p : Parts} (h : parts source = .ok p) : split? source = some p := by
  unfold parts at h
  split at h
  · next q hq =>
    cases h
    exact hq
  · cases h

/-- The parts of a script that has a story: its front matter tells the story but for the scenes, and
these are those that its drafts give. -/
theorem parts_of_compile (h : (compile source).result = .ok g) :
    ∃ p metadata ds told, split? source = some p ∧ loadMetadata p.metadata = .ok metadata ∧
      (drafts p.bodyLine p.body).result = .ok ds ∧
      (ds.foldlM addScene Mapping.empty).result = .ok g.scenes ∧
      readMetadata metadata = .ok told ∧ g = { told with scenes := g.scenes } ∧
      (compile source).warnings =
        (drafts p.bodyLine p.body).warnings ++ (ds.foldlM addScene Mapping.empty).warnings := by
  rw [compile, Logged.result_bind] at h
  obtain ⟨p, hp, h⟩ := Except.bind_eq_ok_iff.1 h
  rw [Logged.result_bind] at h
  obtain ⟨metadata, hmetadata, h⟩ := Except.bind_eq_ok_iff.1 h
  rw [Logged.result_bind] at h
  obtain ⟨ds, hds, h⟩ := Except.bind_eq_ok_iff.1 h
  rw [Logged.result_bind] at h
  obtain ⟨scenes, hscenes, h⟩ := Except.bind_eq_ok_iff.1 h
  rw [Logged.result_bind] at h
  obtain ⟨told, htold, h⟩ := Except.bind_eq_ok_iff.1 h
  cases h
  refine ⟨p, metadata, ds, told, split?_of_parts hp, hmetadata, Logged.result_mapError_eq_ok hds,
    hscenes, htold, rfl, ?_⟩
  rw [compile, Logged.warnings_bind_ok hp, Logged.warnings_bind_ok hmetadata,
    Logged.warnings_bind_ok hds, Logged.warnings_bind_ok hscenes, Logged.warnings_bind_ok htold]
  simp [Logged.mapError]

/-- The story of a script has the scenes that its drafts give, and the warnings of its lines come
before those of its scenes. -/
theorem compile_eq_ok (h : (compile source).result = .ok g) :
    ∃ p ds, split? source = some p ∧ (drafts p.bodyLine p.body).result = .ok ds ∧
      (ds.foldlM addScene Mapping.empty).result = .ok g.scenes ∧
      (compile source).warnings =
        (drafts p.bodyLine p.body).warnings ++ (ds.foldlM addScene Mapping.empty).warnings := by
  obtain ⟨p, -, ds, -, hp, -, hds, hscenes, -, -, hwarnings⟩ := parts_of_compile h
  exact ⟨p, ds, hp, hds, hscenes, hwarnings⟩

theorem compile_of_parse (h : (parse strict source).result = .ok (.ok g)) :
    (compile source).result = .ok g := by
  unfold parse at h
  split at h
  · cases h
  · dsimp only at h
    split at h
    · cases h
    · cases h
    · cases h
    · next game hgame =>
      -- A strict reading may reject the story, but never gives another one.
      split at h
      · cases h
        exact hgame
      · split at h
        · cases h
        · dsimp only at h
          split at h <;> cases h
          exact hgame

/-- A strict reading adds no warning. -/
theorem warnings_of_parse (h : (parse strict source).result = .ok (.ok g)) :
    (parse strict source).warnings = (compile source).warnings := by
  unfold parse at h ⊢
  split at h
  · cases h
  · next hblank =>
    rw [if_neg hblank]
    dsimp only
    split
    · rfl
    · rfl
    · rfl
    · split
      · rfl
      · split <;> rfl

/-- A story has front matter and scenes. -/
theorem exists_parts_of_parse (h : (parse strict source).result = .ok (.ok g)) :
    ∃ p ds, split? source = some p ∧ (drafts p.bodyLine p.body).result = .ok ds := by
  obtain ⟨p, ds, hp, hds, -⟩ := compile_eq_ok (compile_of_parse h)
  exact ⟨p, ds, hp, hds⟩

/-- The story of a script whose parts can be read. -/
theorem compile_of_parts {p : Parts} {metadata : List (Value × Value)} {ds : List Draft}
    {scenes : Mapping (Scene Generated)} {game : Game} (hparts : split? source = some p)
    (hmetadata : loadMetadata p.metadata = .ok metadata)
    (hdrafts : (drafts p.bodyLine p.body).result = .ok ds)
    (hscenes : (ds.foldlM addScene Mapping.empty).result = .ok scenes)
    (hgame : readMetadata metadata = .ok game) :
    (compile source).result = .ok { game with scenes := scenes } := by
  have hp : (Logged.lift (parts source)).result = .ok p := by
    rw [Logged.result_lift, parts, hparts]
  have hd : ((drafts p.bodyLine p.body).mapError Failure.fault).result = .ok ds := by
    rw [Logged.mapError, hdrafts]
    rfl
  have hm : (Logged.lift (loadMetadata p.metadata)).result = .ok metadata := hmetadata
  have hg : (Logged.lift (readMetadata metadata)).result = .ok game := hgame
  rw [compile, Logged.result_bind_ok hp, Logged.result_bind_ok hm, Logged.result_bind_ok hd,
    Logged.result_bind_ok hscenes, Logged.result_bind_ok hg]
  rfl

/-- A script that is compiled is parsed to its story. -/
theorem parse_of_compile (hblank : Text.allBlank source = false)
    (h : (compile source).result = .ok g) : (parse false source).result = .ok (.ok g) := by
  unfold parse
  rw [hblank, if_neg Bool.false_ne_true]
  dsimp only
  rw [h]
  rfl

/-- Texts that are compiled to one story are parsed to it if one of them is. -/
theorem parse_of_parse {other : String} (hblank : Text.allBlank other = false)
    (h : (parse strict source).result = .ok (.ok g)) (hother : (compile other).result = .ok g) :
    (parse strict other).result = .ok (.ok g) := by
  have hcompile := compile_of_parse h
  unfold parse at h ⊢
  rw [hblank, if_neg Bool.false_ne_true]
  split at h
  · cases h
  · dsimp only at h ⊢
    rw [hcompile] at h
    rw [hother]
    dsimp only at h ⊢
    -- Whether the story has errors does not depend on the text that it comes from.
    split
    · rfl
    · next hstrict =>
      rw [if_neg hstrict] at h
      cases hcheck : Lint.checkGame g with
      | error f =>
        rw [hcheck] at h
        cases h
      | ok issues =>
        rw [hcheck] at h
        exact h

/-- A script is a story if its parts can be read. -/
theorem exists_parse {p : Parts} {metadata : List (Value × Value)} {ds : List Draft}
    (hblank : Text.allBlank source = false) (hparts : split? source = some p)
    (hmetadata : loadMetadata p.metadata = .ok metadata)
    (hdrafts : (drafts p.bodyLine p.body).result = .ok ds)
    (hscenes : (ds.foldlM addScene Mapping.empty).result.isOk = true)
    (hgame : (readMetadata metadata).isOk = true) :
    ∃ g, (parse false source).result = .ok (.ok g) := by
  obtain ⟨scenes, hscenes⟩ := Except.exists_of_isOk hscenes
  obtain ⟨game, hgame⟩ := Except.exists_of_isOk hgame
  exact ⟨_, parse_of_compile hblank (compile_of_parts hparts hmetadata hdrafts hscenes hgame)⟩

/-- A script is a story if its front matter and its scenes can be read. -/
theorem exists_parse_of_isOk {p : Parts} {ds : List Draft} (hblank : Text.allBlank source = false)
    (hparts : split? source = some p)
    (hgame : (loadMetadata p.metadata >>= readMetadata).isOk = true)
    (hdrafts : (drafts p.bodyLine p.body).result = .ok ds)
    (hscenes : (ds.foldlM addScene Mapping.empty).result.isOk = true) :
    ∃ g, (parse false source).result = .ok (.ok g) := by
  obtain ⟨game, hgame⟩ := Except.exists_of_isOk hgame
  obtain ⟨metadata, hmetadata, hgame⟩ := Except.bind_eq_ok_iff.1 hgame
  exact exists_parse hblank hparts hmetadata hdrafts hscenes (by rw [hgame]; rfl)

end Storyline.Script
