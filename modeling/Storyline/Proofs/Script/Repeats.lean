import Storyline.Proofs.Lint.Headers

/-!
# Scenes of one name

Scenes are added to a story one by one, in the order of the script. A scene whose name is there
takes the place of the scene that had it, and a warning says so; a new name goes to the end. So the
names of a story are those of the script in the order in which they first occur, each with the scene
that was written last, and there are as many warnings as there are scenes that are lost.

## Main definitions

* `Warning.doubled?`: the scene and the line of which a warning says that the name was given before
* `Tally`: the scenes that were added and the warnings so far

## Main results

* `tally_addScene`: one more scene
* `tally_foldlM`: all scenes of a script
* `scenes_of_parse`: which scenes a story has, and what is said of the others
-/

namespace Storyline

/-- The scene, with its line, of which a warning says that its name was given before. -/
def Warning.doubled? : Warning → Option (String × Nat)
  | .duplicateScene scene line => some (scene, line)
  | _ => none

namespace Script

open Lint

/-! ## What else is warned of -/

/-- Whether a computation warns of no repeated scene, with a result or without one. -/
def Undoubled {ε α : Type} (x : Logged ε α) : Prop :=
  ∀ w ∈ x.warnings, w.doubled? = none

section

variable {ε α β : Type}

theorem Undoubled.bind {x : Logged ε α} {f : α → Logged ε β} (hx : Undoubled x)
    (hf : ∀ a, Undoubled (f a)) : Undoubled (x >>= f) := by
  unfold Undoubled
  cases hresult : x.result with
  | error e =>
    rw [Logged.warnings_bind_error hresult]
    exact hx
  | ok a =>
    rw [Logged.warnings_bind_ok hresult]
    exact List.forall_mem_append.2 ⟨hx, hf a⟩

theorem undoubled_pure (a : α) : Undoubled (pure a : Logged ε α) :=
  List.forall_mem_nil _

theorem undoubled_lift (x : Except ε α) : Undoubled (Logged.lift x) :=
  List.forall_mem_nil _

theorem undoubled_warn {w : Warning} (h : w.doubled? = none) :
    Undoubled (Logged.warn w : Logged ε Unit) :=
  List.forall_mem_singleton.2 h

theorem Undoubled.filterMap_eq {x : Logged ε α} (h : Undoubled x) :
    x.warnings.filterMap Warning.doubled? = [] :=
  List.filterMap_eq_nil_iff.2 h

end

/-- The blocks of a scene give no cause to warn of another scene. -/
theorem undoubled_nodes (id : String) (index : Nat) (narration : Option String) (bs : List Block) :
    Undoubled (nodes id index narration bs) := by
  induction bs generalizing index narration with
  | nil =>
    cases narration with
    | none => exact undoubled_pure _
    | some url => exact (undoubled_warn rfl).bind fun _ => undoubled_pure _
  | cons b bs ih =>
    rw [nodes]
    split
    · exact ih _ _
    · exact (ih _ _).bind fun _ => undoubled_pure _
    · refine Undoubled.bind ?_ fun _ => (undoubled_lift _).bind fun _ => (ih _ _).bind fun _ =>
        undoubled_pure _
      cases narration with
      | none => exact undoubled_pure _
      | some url => exact undoubled_warn rfl

theorem undoubled_scene (d : Draft) : Undoubled (scene d) :=
  (undoubled_nodes _ _ _ _).bind fun _ => undoubled_pure _

/-- Cutting a script into scenes gives no cause to warn of one. -/
theorem undoubled_drafts (n : Nat) (body : String) : Undoubled (drafts n body) := by
  intro w hw
  rw [drafts, draftsOfLines] at hw
  rcases List.mem_append.1 hw with hw | hw
  · rw [Option.mem_toList] at hw
    obtain ⟨p, -, rfl⟩ := Option.map_eq_some_iff.1 hw
    rfl
  · obtain ⟨⟨m, piece⟩, -, hpiece⟩ := List.mem_filterMap.1 hw
    unfold Piece.warning? at hpiece
    split at hpiece
    · split at hpiece <;> cases hpiece
      rfl
    · cases hpiece

/-! ## Adding scenes -/

/-- What is known after drafts were added to the scenes of a story, with the warnings so far: the
names are those of the drafts, each has the scene of the last draft of that name, and the repeated
headers were warned of. -/
structure Tally (ds : List Draft) (scenes : Mapping (Scene Generated)) (warnings : List Warning) :
    Prop where
  keys : scenes.keys = (ds.map Draft.id).eraseDups
  last : ∀ id s, scenes.get? id = some s →
    ∃ d, ds.findRev? (·.id = id) = some d ∧ (scene d).result = .ok s
  doubled : warnings.filterMap Warning.doubled? = repeated (ds.map Draft.heading)

theorem tally_nil : Tally [] Mapping.empty [] :=
  ⟨rfl, nofun, rfl⟩

theorem map_fst_heading (ds : List Draft) : (ds.map Draft.heading).map Prod.fst = ds.map Draft.id :=
  List.map_map ..

theorem findRev?_concat (ds : List Draft) (d : Draft) (id : String) :
    (ds ++ [d]).findRev? (·.id = id) = if d.id = id then some d else ds.findRev? (·.id = id) := by
  rw [List.findRev?_eq_find?_reverse, List.findRev?_eq_find?_reverse, List.reverse_append,
    List.reverse_singleton, List.singleton_append, List.find?_cons]
  split <;> simp_all

variable {ds before : List Draft} {d : Draft} {scenes after : Mapping (Scene Generated)}
  {warnings : List Warning}

/-- A scene that is added gives cause to warn of its header exactly if its name is there. -/
theorem doubled_addScene (scenes : Mapping (Scene Generated)) (d : Draft) :
    (addScene scenes d).warnings.filterMap Warning.doubled? =
      if d.id ∈ scenes.keys then [d.heading] else [] := by
  have hsilent : Undoubled (scene d >>= fun s => pure (scenes.insert d.id s)) :=
    (undoubled_scene d).bind fun _ => undoubled_pure _
  unfold addScene
  split
  · next hthere =>
    rw [if_pos (Mapping.contains_iff_mem_keys.1 hthere),
      Logged.warnings_bind_ok (Logged.result_warn _), List.filterMap_append]
    exact congrArg (_ :: ·) hsilent.filterMap_eq
  · next hnew =>
    rw [if_neg fun hmem => hnew (Mapping.contains_iff_mem_keys.2 hmem)]
    exact hsilent.filterMap_eq

/-- One more scene. -/
theorem tally_addScene (htally : Tally ds scenes warnings)
    (h : (addScene scenes d).result = .ok after) :
    Tally (ds ++ [d]) after (warnings ++ (addScene scenes d).warnings) := by
  rw [result_addScene] at h
  obtain ⟨s, hs, rfl⟩ := Except.map_eq_ok_iff.1 h
  refine ⟨?_, fun id t ht => ?_, ?_⟩
  · rw [List.map_append, List.map_singleton]
    exact Mapping.keys_insert_eraseDups htally.keys d.id s
  · rw [findRev?_concat]
    rw [Mapping.get?_insert] at ht
    -- The new draft is the last of its name, and of no other name.
    by_cases hid : id = d.id
    · rw [if_pos hid] at ht
      cases ht
      exact ⟨d, if_pos hid.symm, hs⟩
    · rw [if_neg hid] at ht
      rw [if_neg (Ne.symm hid)]
      exact htally.last id t ht
  · rw [List.filterMap_append, htally.doubled, doubled_addScene, List.map_append,
      List.map_singleton, repeated_concat, map_fst_heading, htally.keys]
    simp only [List.mem_eraseDups]
    rfl

/-- All scenes of a script. -/
theorem tally_foldlM (htally : Tally before scenes warnings)
    (h : (ds.foldlM addScene scenes).result = .ok after) :
    Tally (before ++ ds) after (warnings ++ (ds.foldlM addScene scenes).warnings) := by
  -- Each scene that is added joins the drafts before, so that the rest starts from its tally.
  induction ds generalizing before scenes warnings with
  | nil =>
    cases h
    rw [List.append_nil]
    simpa using htally
  | cons d ds ih =>
    rw [List.foldlM_cons] at h ⊢
    rw [Logged.result_bind] at h
    obtain ⟨next, hnext, h⟩ := Except.bind_eq_ok_iff.1 h
    rw [Logged.warnings_bind_ok hnext, ← List.append_assoc, List.append_cons]
    exact ih (tally_addScene htally hnext) h

/-- Every header is either the first of its name or a repeated one. -/
theorem length_repeated (hs : List (String × Nat)) :
    (repeated hs).length + (hs.map Prod.fst).eraseDups.length = hs.length := by
  induction hs using List.reverseRecOn with
  | nil => rfl
  | append_singleton hs h ih =>
    rw [repeated_concat, List.map_append, List.map_singleton, Mapping.eraseDups_concat]
    split <;> simp only [List.length_append, List.length_singleton, List.length_nil] <;> omega

/-! ## Stories -/

/-- **Of scenes with one name the last counts, at the place of the first.** The names of a story are
those of the scenes of its script in the order in which they first occur, each with the scene that
was written last under that name; the headers that repeat a name are warned of, in order, and there
are as many of them as there are scenes that are not in the story. -/
theorem scenes_of_parse {strict : Bool} {source : String} {g : Game}
    (h : (parse strict source).result = .ok (.ok g)) :
    ∃ p ds, split? source = some p ∧ (drafts p.bodyLine p.body).result = .ok ds ∧
      g.scenes.keys = (ds.map Draft.id).eraseDups ∧
      (∀ id ∈ g.scenes.keys, ∃ d s, ds.findRev? (·.id = id) = some d ∧
        (scene d).result = .ok s ∧ g.scenes.get? id = some s) ∧
      (parse strict source).warnings.filterMap Warning.doubled? =
        repeated (ds.map Draft.heading) ∧
      ((parse strict source).warnings.filterMap Warning.doubled?).length + g.scenes.size =
        ds.length := by
  obtain ⟨p, ds, hp, hds, hscenes, hwarnings⟩ := compile_eq_ok (compile_of_parse h)
  have htally := tally_foldlM tally_nil hscenes
  rw [List.nil_append, List.nil_append] at htally
  have hdoubled : (parse strict source).warnings.filterMap Warning.doubled? =
      repeated (ds.map Draft.heading) := by
    rw [warnings_of_parse h, hwarnings, List.filterMap_append,
      (undoubled_drafts p.bodyLine p.body).filterMap_eq, htally.doubled, List.nil_append]
  refine ⟨p, ds, hp, hds, htally.keys, fun id hid => ?_, hdoubled, ?_⟩
  · obtain ⟨s, hs⟩ := Mapping.exists_get?_of_mem_keys hid
    obtain ⟨d, hd, hscene⟩ := htally.last id s hs
    exact ⟨d, s, hd, hscene, hs⟩
  · have hcount := length_repeated (ds.map Draft.heading)
    have hsize : g.scenes.size = g.scenes.keys.length := (List.length_map _).symm
    rw [map_fst_heading, List.length_map] at hcount
    rw [hdoubled, hsize, htally.keys, hcount]

/-- An inn that is written twice, and between the two a mill whose narration is lost. -/
def rebuiltBody : String :=
  "intro\n# inn\nOld\n# mill\n<!-- audio: wheel.mp3 -->\n# inn\nNew"

def oldInn : Draft where
  id := "inn"
  line := 5
  blocks := [{ line := 6, form := .text "Old" }]

def quietMill : Draft where
  id := "mill"
  line := 7
  blocks := [{ line := 8, form := .narration "wheel.mp3" }]

def newInn : Draft where
  id := "inn"
  line := 9
  blocks := [{ line := 10, form := .text "New" }]

theorem scenes_of_parse_rebuilt :
    ∃ g, (parse false ("---\ntitle: T\n---\n" ++ rebuiltBody)).result = .ok (.ok g) ∧
      g.scenes.keys = ["inn", "mill"] ∧
      g.scenes.get? "inn" = some { id := "inn", nodes := [.text "New" none] } ∧
      (parse false ("---\ntitle: T\n---\n" ++ rebuiltBody)).warnings.filterMap Warning.doubled? =
        [("inn", 9)] := by
  have hparts : split? ("---\ntitle: T\n---\n" ++ rebuiltBody) =
      some { metadata := "title: T", body := rebuiltBody, bodyLine := 4 } := by decide +kernel
  have hdrafts : (drafts 4 rebuiltBody).result = .ok [oldInn, quietMill, newInn] := by cbv
  have hscene : (scene newInn).result = .ok { id := "inn", nodes := [.text "New" none] } := by cbv
  obtain ⟨g, hg⟩ := exists_parse_of_isOk (by decide +kernel) hparts (by decide +kernel) hdrafts
    (by decide +kernel)
  obtain ⟨p, ds, hp, hds, hkeys, hlast, hdoubled, -⟩ := scenes_of_parse hg
  obtain rfl := Option.some.inj (hparts.symm.trans hp)
  obtain rfl := Except.ok.inj (hdrafts.symm.trans hds)
  have hnames : g.scenes.keys = ["inn", "mill"] := hkeys.trans (by decide)
  obtain ⟨d, s, hd, hs, hinn⟩ := hlast "inn" (by rw [hnames]; decide)
  obtain rfl := Option.some.inj ((show _ = some newInn by decide).symm.trans hd)
  obtain rfl := Except.ok.inj (hscene.symm.trans hs)
  exact ⟨g, hg, hnames, hinn, hdoubled.trans (by decide)⟩

end Script

end Storyline
