import Storyline.Proofs.Script.Canonical.Fields
import Storyline.Proofs.Script.Media

/-!
# The canonical form of generated media

The data of a fence may say one thing in many ways: names in a list or between commas, variables in
a mapping, in a list of mappings or by their bare names, the kind of a sound under three keys. The
fields that are written for the media say it in one way, and it is read as the same media.

## Main results

* `nameList_written`, `variableNotes_written`: lists of names, and variables with what is said of
  them
* `readMedia_mediaFields`: normal media are read back from their fields
* `readMedia_canonical`: so are all media that a fence describes
-/

namespace Storyline

open Text

theorem ofName?_name (kind : AudioKind) : AudioKind.ofName? kind.name = some kind := by
  cases kind <;> rfl

namespace Script

/-! ## Names and variables -/

theorem isEmpty_of_filled {s : String} (h : Filled s.toList) : s.isEmpty = false := by
  simpa using h.1

/-- A list of filled names is read back. -/
theorem nameList_written {names : Option (List String)}
    (h : ∀ ns ∈ names, ns ≠ [] ∧ ∀ n ∈ ns, Filled n.toList) :
    nameList (((names.filter fun ns => !ns.isEmpty).map Schema.writeStrings).getD .null) =
      .ok names := by
  cases names with
  | none => rfl
  | some ns =>
    obtain ⟨hne, hfilled⟩ := h ns rfl
    have hitems : ns.isEmpty = false := List.isEmpty_eq_false_iff.2 hne
    have hread : (ns.map Value.str).mapM (fun i => do return trimmed (← textOf i)) =
        (.ok ns : Except Failure (List String)) := by
      refine mapM_written fun n hn => congrArg Except.ok ?_
      rw [trimmed, (hfilled n hn).2, String.ofList_toList]
    -- No name is empty, so none of them is left out.
    have hkept : ns.filter (fun n => !n.isEmpty) = ns := by
      refine List.filter_eq_self.2 fun n hn => ?_
      rw [isEmpty_of_filled (hfilled n hn)]
      rfl
    rw [Option.filter_some, hitems, Bool.not_false, if_pos rfl, Option.map_some, Option.getD_some,
      Schema.writeStrings, nameList]
    dsimp only
    rw [hread]
    show Except.ok (if (ns.filter fun n => !n.isEmpty).isEmpty then none
      else some (ns.filter fun n => !n.isEmpty)) = _
    rw [hkept, hitems]
    rfl

/-- Each variable is read back from its own entry. -/
theorem variableNotesOf_variableNote (p : String × String) :
    variableNotesOf (variableNote p) = .ok [p] := rfl

/-- Variables with what is said of them are read from their list. -/
theorem variableNotes_pairs (ps : List (String × String)) :
    variableNotes (.list (ps.map variableNote)) = .ok (nonEmpty? (some (Mapping.ofList ps))) := by
  have hread : (ps.map variableNote).mapM variableNotesOf = .ok (ps.map fun p => [p]) := by
    rw [Except.mapM_eq_ok_iff, List.forall₂_map_left_iff, List.forall₂_map_right_iff,
      List.forall₂_same]
    exact fun p _ => variableNotesOf_variableNote p
  have hjoined : (ps.map fun p => [p]).flatten = ps := by
    rw [← List.flatMap_def, List.flatMap_singleton']
  rw [variableNotes, hread]
  show Except.ok (nonEmpty? (some (Mapping.ofList (ps.map fun p => [p]).flatten))) = _
  rw [hjoined]

/-- Variables with what is said of them are read back. -/
theorem variableNotes_written {notes : Option (Mapping String)}
    (h : ∀ ns ∈ notes, ns.isEmpty = false) :
    variableNotes (((nonEmpty? notes).map fun vs => .list (vs.toList.map variableNote)).getD
      .null) = .ok notes := by
  cases notes with
  | none => rfl
  | some ns =>
    have hsome : nonEmpty? (some ns) = some ns := by
      rw [nonEmpty?, Option.filter_some, h ns rfl, Bool.not_false, if_pos rfl]
    have hsame : Mapping.ofList ns.toList = ns :=
      Mapping.ext_toList (Mapping.toList_ofList ns.nodup)
    rw [hsome, Option.map_some, Option.getD_some, variableNotes_pairs, hsame, hsome]

/-! ## Media -/

/-- A filled prompt is shown, and has no blanks to trim. -/
theorem shownText?_prompt {prompt : String} (h : Filled prompt.toList) :
    shownText? (.str prompt) = .ok (some prompt) ∧ trimmed prompt = prompt := by
  refine ⟨shownText?_written (o := some prompt) fun t ht => ?_, ?_⟩
  · cases ht
    cases hblank : allBlank prompt with
    | false => rfl
    | true => exact absurd (List.all_eq_true.1 hblank) h.not_blank
  · rw [trimmed, h.2, String.ofList_toList]

/-- After the prompt and the address, what the kind of media takes is read. -/
theorem readMedia_fields {fields : List (String × Option Value)} (prompt : String)
    (url : Option String) (hfilled : Filled prompt.toList) (hdistinct : (fields.map Prod.fst).Nodup)
    (hprompt : ("prompt", some (.str prompt)) ∈ fields) (hurl : ("url", url.map Value.str) ∈ fields)
    (fence : String) (place : Place) :
    readMedia fence place (asEntries (heldFields fields)) =
      match fence with
      | "image-gen" => do
        let character ← textOf? (valueAt (asEntries (heldFields fields)) "character")
        let names ← nameList (valueAt (asEntries (heldFields fields)) "characters")
        return .image prompt character names url
      | "audio-gen" => do
        return .audio (← readAudioKind fence place (asEntries (heldFields fields))) prompt url
      | "video-gen" => return .video prompt url
      | "minigame-gen" => do
        let notes ← variableNotes (valueAt (asEntries (heldFields fields)) "variables")
        return .minigame prompt notes url
      | _ => throw (.block fence place .unknownFence) := by
  obtain ⟨hshown, htrimmed⟩ := shownText?_prompt hfilled
  rw [readMedia, valueAt_heldFields hdistinct hprompt, valueAt_heldFields hdistinct hurl,
    Option.getD_some, hshown, textOf?_written]
  dsimp only [bind, Except.bind, Option.map_some]
  generalize trimmed prompt = p at htrimmed
  subst htrimmed
  rfl

/-- Normal media are read back from the fields that are written for them. -/
theorem readMedia_mediaFields {m : Generated} (h : m.Normal) (place : Place) :
    readMedia (fenceName m) place (asEntries (mediaFields m)) = .ok m := by
  cases m with
  | image prompt character names url =>
    rw [mediaFields, fenceName, readMedia_fields prompt url h.1 (by simp)
      (by simp) (by simp)]
    rw [valueAt_heldFields (o := character.map Value.str) (by simp) (by simp), textOf?_written,
      valueAt_heldFields (by simp) (.tail _ (.tail _ (.head _))), nameList_written h.2]
    rfl
  | audio kind prompt url =>
    rw [mediaFields, fenceName, readMedia_fields prompt url h (by simp)
      (by simp) (by simp)]
    have hkind : readAudioKind "audio-gen" place (asEntries (heldFields
        [("type", some (.str kind.name)), ("prompt", some (.str prompt)),
          ("url", url.map Value.str)])) = .ok kind := by
      rw [readAudioKind, List.findSome?_cons,
        find?_heldFields (o := some (.str kind.name)) (by simp) (by simp)]
      dsimp only [Option.getD_some]
      rw [ofName?_name]
    rw [hkind]
    rfl
  | video prompt url =>
    rw [mediaFields, fenceName, readMedia_fields prompt url h (by simp)
      (by simp) (by simp)]
    rfl
  | minigame prompt notes url =>
    rw [mediaFields, fenceName, readMedia_fields prompt url h.1 (by simp)
      (by simp) (by simp)]
    rw [valueAt_heldFields (by simp) (.tail _ (.head _)), variableNotes_written h.2]
    rfl

/-- The media that a fence describes are written in the same fence. -/
theorem gives_fenceName (fence : String) (place : Place) (data : List (Value × Value)) :
    (readMedia fence place data).Gives fun m => fenceName m = fence := by
  refine Except.gives_bind fun shown => ?_
  split
  · refine Except.gives_bind fun url => ?_
    split
    · exact Except.gives_bind fun character => Except.gives_bind fun names => Except.gives_ok rfl
    · exact Except.gives_bind fun kind => Except.gives_ok rfl
    · exact Except.gives_ok rfl
    · exact Except.gives_bind fun notes => Except.gives_ok rfl
    · exact Except.gives_error _
  · exact Except.gives_error _

/-- **Generated media have a canonical form.** Whatever data a fence describes media with, the media
are written in a fence of the same name, and the fields in it are read as the same media, wherever
the fence stands. -/
theorem readMedia_canonical {fence : String} {place : Place} {data : List (Value × Value)}
    {m : Generated} (h : readMedia fence place data = .ok m) :
    nodeLines (.generated m) = fenceLines fence (mediaFields m) ∧
      ∀ other, readMedia fence other (asEntries (mediaFields m)) = .ok m := by
  obtain rfl : fenceName m = fence := gives_fenceName fence place data m h
  exact ⟨rfl, readMedia_mediaFields (gives_readMedia _ place data m h)⟩

/-- A game of dice whose variables are spelled in several ways, one of them twice and one by a
number. -/
def diceData : List (Value × Value) :=
  [(.str "prompt", .str "  Dice "), (.int 1, .null), (.str "url", .int 5),
    (.str "variables", .list [.map [(.str "gold", .int 3), (.int 7, .null)], .str "luck", .null,
      .map [(.str "gold", .str "coins")]])]

/-- The game of dice, whose variables are written as a list of mappings. -/
theorem diceData_canonical :
    ∃ m, readMedia "minigame-gen" {} diceData = .ok m ∧
      mediaFields m = [("prompt", .str "Dice"), ("variables", .list
        [variableNote ("gold", "coins"), variableNote ("7", ""), variableNote ("luck", "")]),
        ("url", .str "5")] ∧
      readMedia "minigame-gen" {} (asEntries (mediaFields m)) = .ok m := by
  let m : Generated := .minigame "Dice"
    (some (Mapping.ofList [("gold", "coins"), ("7", ""), ("luck", "")])) (some "5")
  have h : readMedia "minigame-gen" {} diceData = .ok m := by cbv
  exact ⟨m, h, rfl, (readMedia_canonical h).2 {}⟩

end Script

end Storyline
