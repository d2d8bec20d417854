import Storyline.Proofs.Value.Overlong
import Storyline.Script.Media

/-!
# Values without text

Any value may stand where text is wanted, but not every value has a text: one that nests too deep
has none, and neither has one with an integer that is too long. The front matter and the media of a
fence are read in a fixed order, and the first value without a text ends the reading, unless a fault
has been found before it. A fault is reported, but a value without a text is not.

## Main definitions

* `Value.defect?`: why a value has no text
* `Writes`: a computation that can fail only at the values that it writes out
* `metadataTexts`, `mediaTexts`: the values that are written out of front matter and of a fence

## Main results

* `raised_readMetadata`, `raised_readMedia`: the value at which reading ends without a report
-/

namespace Storyline

/-- Why a value has no text: it nests too deep, or an integer in it is too long. -/
def Value.defect? (v : Value) : Option Yaml.Defect :=
  if Yaml.callRoom < v.depth then some .recursion else (lengthFault? v.overlong).map .number

namespace Script

open Except

/-- The first reason for which some values have no text. -/
def firstDefect? (vs : List Value) : Option Yaml.Defect :=
  vs.findSome? Value.defect?

theorem firstDefect?_append (vs ws : List Value) :
    firstDefect? (vs ++ ws) = (firstDefect? vs).or (firstDefect? ws) :=
  List.findSome?_append

theorem firstDefect?_singleton (v : Value) : firstDefect? [v] = v.defect? := by
  rw [firstDefect?, List.findSome?_singleton]

/-- What a failure is that is not reported. -/
def Failure.defect? : Failure → Option Yaml.Defect
  | .defect d => some d
  | _ => none

/-! ## Computations that write values out -/

section

variable {α β : Type} {x : Except Failure α} {vs ws : List Value}

/-- What ends a computation without being reported. -/
def raised (x : Except Failure α) : Option Yaml.Defect :=
  x.fault?.bind Failure.defect?

theorem raised_eq_some_iff {d : Yaml.Defect} : raised x = some d ↔ x = .error (.defect d) := by
  cases x with
  | ok a => exact iff_of_false nofun nofun
  | error e => cases e <;> simp [raised, fault?, Failure.defect?]

/-- A computation that writes out some values in order and fails at the first without a text. -/
def Writes (x : Except Failure α) (vs : List Value) : Prop :=
  x.fault? = (firstDefect? vs).map .defect

theorem Writes.bind {f : α → Except Failure β} (hx : Writes x vs) (hf : ∀ a, Writes (f a) ws) :
    Writes (x >>= f) (vs ++ ws) := by
  rw [Writes, firstDefect?_append, Option.map_or, ← hx]
  exact fault?_bind fun a _ => hf a

theorem Writes.map (hx : Writes x vs) (f : α → β) : Writes (x >>= fun a => .ok (f a)) vs :=
  (fault?_map x f).trans hx

theorem writes_mapM {f : α → Except Failure β} {texts : α → List Value}
    (hf : ∀ a, Writes (f a) (texts a)) (as : List α) : Writes (as.mapM f) (as.flatMap texts) := by
  rw [Writes, fault?_mapM]
  induction as with
  | nil => rfl
  | cons a as ih =>
    rw [List.flatMap_cons, firstDefect?_append, Option.map_or, ← hf a, ← ih, List.findSome?_cons]
    cases (f a).fault? <;> rfl

theorem Writes.raised_eq (hx : Writes x vs) : raised x = firstDefect? vs := by
  rw [raised, hx]
  cases firstDefect? vs <;> rfl

/-- What comes after values have been written out. -/
theorem Writes.raised_bind {f : α → Except Failure β} (hx : Writes x vs)
    (hf : ∀ a, raised (f a) = firstDefect? ws) : raised (x >>= f) = firstDefect? (vs ++ ws) := by
  cases x with
  | ok a =>
    have hnone : firstDefect? vs = none := Option.map_eq_none_iff.1 hx.symm
    rw [firstDefect?_append, hnone]
    exact hf a
  | error e =>
    obtain ⟨d, hd, rfl⟩ := Option.map_eq_some_iff.1 hx.symm
    rw [firstDefect?_append, hd]
    rfl

end

/-! ## Values as text -/

theorem writes_writtenOut {write : Value → Except NumberFault String} {v : Value}
    (h : (write v).fault? = Value.lengthFault? v.overlong) : Writes (writtenOut write v) [v] := by
  rw [Writes, firstDefect?_singleton, writtenOut, Value.defect?]
  split
  · rfl
  · rw [fault?_mapError, h, Option.map_map]
    rfl

theorem writes_textOf (v : Value) : Writes (textOf v) [v] :=
  writes_writtenOut (Value.fault?_text v)

theorem writes_textOf? (v : Value) : Writes (textOf? v) [v] := by
  unfold textOf?
  split
  · rfl
  · exact (writes_textOf v).map some

theorem writes_shownText? (v : Value) : Writes (shownText? v) [v] :=
  (writes_textOf? v).map _

/-- What ends the reading of a text that must be there and of values after it: nothing that comes
after the text counts unless there is one. -/
def raisedAfter (first : Value) (later : List Value) : Option Yaml.Defect :=
  match shownText? first with
  | .ok (some _) => firstDefect? later
  | _ => first.defect?

theorem raised_shownText?_bind {α : Type} {first : Value} {later : List Value}
    {f : Option String → Except Failure α} (hnone : raised (f none) = none)
    (hsome : ∀ t, raised (f (some t)) = firstDefect? later) :
    raised (shownText? first >>= f) = raisedAfter first later := by
  have hwrites := writes_shownText? first
  rw [Writes, firstDefect?_singleton] at hwrites
  rw [raisedAfter]
  cases h : shownText? first with
  | error e =>
    rw [h] at hwrites
    obtain ⟨d, hd, rfl⟩ := Option.map_eq_some_iff.1 hwrites.symm
    exact hd.symm
  | ok shown =>
    cases shown with
    | some t => exact hsome t
    | none =>
      rw [h] at hwrites
      exact hnone.trans (Option.map_eq_none_iff.1 hwrites.symm).symm

/-- The items of a list; any other value stands for itself. -/
def itemsOr : Value → List Value
  | .list items => items
  | v => [v]

/-- The keys and the values of entries. -/
def entryTexts (entries : List (Value × Value)) : List Value :=
  entries.flatMap fun e => [e.1, e.2]

/-! ## Front matter -/

/-- The entries of a mapping that may be missing. -/
def mappingEntries? : Value → Option (List (Value × Value))
  | .null => some []
  | .map entries => some entries
  | _ => none

/-- The texts of a character: its name, and what it goes by if that is no mapping. -/
def characterTexts (e : Value × Value) : List Value :=
  match e.2 with
  | .map _ => [e.1]
  | v => [e.1, v]

/-- The texts of the characters of a story. -/
def charactersTexts (v : Value) : List Value :=
  if v.countsAsNothing then []
  else match v with
    | .map entries => entries.flatMap characterTexts
    | _ => []

/-- The values that are written out of front matter with a title, none of them if a part that is to
be a mapping is something else. -/
def metadataTexts (entries : List (Value × Value)) : Option (List Value) := do
  let state ← mappingEntries? (valueAtEither entries "initialState" "state")
  let making := valueAt entries "ai"
  let making ← mappingEntries? (if making.countsAsNothing then .null else making)
  let style ← mappingEntries? (valueAt making "style")
  return [valueAt entries "description",
      valueAtEither entries "backgroundStory" "background_story", valueAt entries "cover_image",
      valueAt entries "cover_prompt", valueAt entries "cover_aspect_ratio"] ++
    (itemsOr (valueAt entries "tags") ++ (valueAt entries "slug" ::
      (state.map Prod.fst ++ (entryTexts style ++ charactersTexts (valueAt making "characters")))))

theorem writes_byName (entries : List (Value × Value)) :
    Writes (byName entries) (entries.map Prod.fst) := by
  rw [List.map_eq_flatMap]
  exact (writes_mapM (fun e => (writes_textOf e.1).map (·, e.2)) entries).map _

theorem writes_tagTexts (v : Value) : Writes (tagTexts v) (itemsOr v) := by
  unfold tagTexts
  split
  · rfl
  · next items =>
    have h := writes_mapM writes_textOf items
    rwa [List.flatMap_singleton'] at h
  · next hlist =>
    rw [itemsOr]
    · exact (writes_textOf v).map fun t => [t]
    · exact hlist

theorem writes_characterDocument (e : Value × Value) :
    Writes (characterDocument e) (characterTexts e) := by
  obtain ⟨k, v⟩ := e
  cases v with
  | map entries => exact (writes_textOf k).map fun id => (id, Value.map entries)
  | _ => exact (writes_textOf k).bind fun id => (writes_shownText? _).map _

theorem writes_styleDocument (entries : List (Value × Value)) :
    Writes (styleDocument entries) (entryTexts entries) := by
  have htexts : Writes (entries.mapM fun e => do return (← textOf e.1, ← textOf e.2))
      (entryTexts entries) :=
    writes_mapM (fun e => (writes_textOf e.1).bind fun k => (writes_textOf e.2).map (k, ·)) entries
  unfold styleDocument
  split
  · next h =>
    rw [List.isEmpty_iff.1 h]
    rfl
  · exact htexts.map _

theorem raised_characterDocuments (v : Value) :
    raised (characterDocuments v) = firstDefect? (charactersTexts v) := by
  unfold characterDocuments charactersTexts
  by_cases hnothing : v.countsAsNothing = true
  · rw [if_pos hnothing, if_pos hnothing]
    rfl
  · rw [if_neg hnothing, if_neg hnothing]
    cases v with
    | map entries => exact ((writes_mapM writes_characterDocument entries).map _).raised_eq
    | _ => rfl

theorem raised_map {α β : Type} (x : Except Failure α) (f : α → β) :
    raised (x >>= fun a => .ok (f a)) = raised x := by
  rw [raised, fault?_map, raised]

theorem mappingEntries?_eq_none {cause : Cause} {v : Value} (h : mappingEntries? v = none) :
    entriesOr cause v = .error (.metadata cause) := by
  unfold mappingEntries? at h
  split at h
  · cases h
  · cases h
  · next hnull hmap =>
    unfold entriesOr
    split
    · exact absurd rfl hnull
    · exact absurd rfl (hmap _)
    · rfl

theorem entriesOr_eq_ok {cause : Cause} {v : Value} {entries : List (Value × Value)}
    (h : mappingEntries? v = some entries) : entriesOr cause v = .ok entries := by
  unfold mappingEntries? at h
  split at h <;> cases h <;> rfl

theorem raised_entriesOr_bind {α : Type} {cause : Cause} {v : Value}
    {f : List (Value × Value) → Except Failure α}
    {texts : List (Value × Value) → Option (List Value)}
    (hf : ∀ entries, raised (f entries) = firstDefect? ((texts entries).getD [])) :
    raised (entriesOr cause v >>= f) =
      firstDefect? (((mappingEntries? v).bind texts).getD []) := by
  cases h : mappingEntries? v with
  | none =>
    rw [mappingEntries?_eq_none h]
    rfl
  | some entries =>
    rw [entriesOr_eq_ok h]
    exact hf entries

theorem raised_storyDocument (entries : List (Value × Value)) :
    raised (storyDocument entries) =
      raisedAfter (valueAt entries "title") ((metadataTexts entries).getD []) := by
  have htext (name : String) : Writes (do
      return (name, Value.ofString? (← shownText? (valueAt entries name))))
      [valueAt entries name] :=
    (writes_shownText? (valueAt entries name)).map fun t => (name, Value.ofString? t)
  refine raised_shownText?_bind rfl fun title => ?_
  refine raised_entriesOr_bind fun state => raised_entriesOr_bind fun making => ?_
  refine raised_entriesOr_bind fun style => (htext _).raised_bind fun description => ?_
  refine (writes_shownText? _).raised_bind fun background => (htext _).raised_bind fun image => ?_
  refine (htext _).raised_bind fun prompt => (htext _).raised_bind fun aspectRatio => ?_
  refine (writes_tagTexts _).raised_bind fun tags => (htext _).raised_bind fun slug => ?_
  refine (writes_byName state).raised_bind fun state => ?_
  refine (writes_styleDocument style).raised_bind fun style => ?_
  exact (raised_map _ _).trans (raised_characterDocuments _)

theorem raised_readMetadata (entries : List (Value × Value)) :
    raised (readMetadata entries) =
      raisedAfter (valueAt entries "title") ((metadataTexts entries).getD []) := by
  rw [← raised_storyDocument, readMetadata]
  cases storyDocument entries with
  | error e => rfl
  | ok document =>
    -- A document that is no story has problems, which are reported.
    change raised (((Schema.readGame {} document).toExcept).mapError Failure.problems) = none
    cases (Schema.readGame {} document).toExcept <;> rfl

/-! ## Fences -/

/-- The texts of one entry of a list of variables. -/
def noteTexts : Value → List Value
  | .map entries => entryTexts entries
  | v => [v]

/-- The value that tells the kind of generated sound. -/
def audioKindOf (data : List (Value × Value)) : Value :=
  (["type", "audioType", "audio_type"].findSome? (Value.find? data)).getD .null

/-- The values that are written out of a fence of some kind, the prompt and the address aside. -/
def fenceTexts (fence : String) (data : List (Value × Value)) : List Value :=
  match fence with
  | "image-gen" => valueAt data "character" :: itemsOr (valueAt data "characters")
  | "audio-gen" => [audioKindOf data]
  | "minigame-gen" => (itemsOr (valueAt data "variables")).flatMap noteTexts
  | _ => []

/-- The values that are written out of a fence with a prompt. -/
def mediaTexts (fence : String) (data : List (Value × Value)) : List Value :=
  valueAt data "url" :: fenceTexts fence data

theorem writes_nameList (v : Value) : Writes (nameList v) (itemsOr v) := by
  cases v with
  | null | str => rfl
  | list items =>
    have hitems := writes_mapM (fun i => (writes_textOf i).map Text.trimmed) items
    rw [List.flatMap_singleton'] at hitems
    exact hitems.map _
  | _ => exact (writes_textOf _).map _

theorem writes_variableNotesOf (v : Value) : Writes (variableNotesOf v) (noteTexts v) := by
  have hentry (e : Value × Value) :
      Writes (do return (← textOf e.1, (← textOf? e.2).getD "")) [e.1, e.2] :=
    (writes_textOf e.1).bind fun k => (writes_textOf? e.2).map fun t => (k, t.getD "")
  cases v with
  | null => rfl
  | map entries => exact writes_mapM hentry entries
  | _ => exact (writes_textOf _).map fun t => [(t, "")]

theorem writes_variableNotes (v : Value) :
    Writes (variableNotes v) ((itemsOr v).flatMap noteTexts) :=
  (writes_mapM writes_variableNotesOf _).map _

theorem raised_readAudioKind (fence : String) (place : Place) (data : List (Value × Value)) :
    raised (readAudioKind fence place data) = firstDefect? [audioKindOf data] := by
  have hfound : (["type", "audioType", "audio_type"].findSome? (Value.find? data)).getD .null =
      audioKindOf data := rfl
  unfold readAudioKind
  rw [hfound]
  generalize audioKindOf data = found
  -- A value that is no kind of sound is written out for the fault that reports it.
  have hshown : raised (writtenOut Value.literal found >>= fun shown =>
      (.error (.block fence place (.badAudioKind shown)) : Except Failure AudioKind)) =
        firstDefect? [found] := by
    have hwrites := writes_writtenOut (Value.fault?_literal found)
    refine (hwrites.raised_bind fun shown => ?_).trans (congrArg firstDefect? (List.append_nil _))
    rfl
  cases found with
  | str s =>
    -- Only a string is known to be a kind of sound, and a string has a text.
    dsimp only
    cases AudioKind.ofName? s with
    | some kind => rfl
    | none => exact hshown
  | _ => exact hshown

theorem raised_readMedia (fence : String) (place : Place) (data : List (Value × Value)) :
    raised (readMedia fence place data) =
      raisedAfter (valueAt data "prompt") (mediaTexts fence data) := by
  have hmedia : mediaTexts fence data = [valueAt data "url"] ++ fenceTexts fence data := rfl
  rw [hmedia]
  refine raised_shownText?_bind rfl fun prompt => ?_
  refine (writes_textOf? _).raised_bind fun url => ?_
  split
  · exact ((writes_textOf? _).bind fun character => (writes_nameList _).map _).raised_eq
  · exact (raised_map _ _).trans (raised_readAudioKind _ _ _)
  · rfl
  · exact ((writes_variableNotes _).map _).raised_eq
  · -- No other fence is known, and nothing more is written out of it.
    unfold fenceTexts
    split <;> first | rfl | contradiction

end Script

end Storyline
