import Mathlib
import Storyline.Proofs.Schema.Exchange
import Storyline.Proofs.Script.Canonical.Fields

/-!
# The canonical form of front matter

Front matter may spell a story in many ways: texts as any values, tags in a list or alone,
characters by their names only, variables under an older name, blanks for what is missing. The
fields that are written for the story spell it in one way, and they are read as the same story.

Reading goes through a document. Whatever the front matter is, its document comes from a heading,
and three parts of it are left to check: whether the story is published, its variables and its
characters. What is written for a story gives a heading in which the three are those of the story.

## Main definitions

* `Heading`, `Heading.document`: what front matter says of a story, and its document
* `Heading.ofGame`, `Heading.Shown`: the heading of a story, and what its texts are like
* `storyOf`: the story of front matter with given scenes

## Main results

* `gives_storyDocument`: the document of front matter comes from a heading
* `readGame_document`: the story of a heading
* `storyDocument_metadataEntries`: the heading of the fields that are written for a story
* `storyOf_canonical`: written front matter is read as the same story
-/

namespace Storyline

open Text

/-- A mapping of pairs is not empty if there is a pair. -/
theorem Mapping.isEmpty_ofList {α : Type} {ps : List (String × α)} (h : ps ≠ []) :
    (ofList ps).isEmpty = false := by
  have hkept : ∀ (ps : List (String × α)) (m : Mapping α), m.isEmpty = false →
      (ps.foldl (fun m p => m.insert p.1 p.2) m).isEmpty = false := by
    intro ps
    induction ps with
    | nil => exact fun m hm => hm
    | cons p ps ih =>
      refine fun m _ => ih _ ?_
      rw [Mapping.isEmpty, toList_insert]
      cases m.toList with
      | nil => rfl
      | cons q qs => by_cases hq : q.1 = p.1 <;> simp [insertPair, hq]
  obtain ⟨p, ps, rfl⟩ := List.exists_cons_of_ne_nil h
  exact hkept ps _ rfl

/-- Whether a mapping that may be missing is not empty if it is there. -/
def Holds {α : Type} (o : Option (Mapping α)) : Prop :=
  ∀ m ∈ o, m.isEmpty = false

theorem holds_none {α : Type} : Holds (none : Option (Mapping α)) :=
  nofun

theorem holds_ofList {α : Type} {ps : List (String × α)} (h : ps ≠ []) :
    Holds (some (Mapping.ofList ps)) := by
  rintro m ⟨⟩
  exact Mapping.isEmpty_ofList h

theorem holds_map_iff {α β : Type} {f : α → β} {o : Option (Mapping α)} :
    Holds (o.map (Mapping.map f)) ↔ Holds o := by
  cases o with
  | none => exact ⟨fun _ => holds_none, fun _ => holds_none⟩
  | some m => simp [Holds, Mapping.isEmpty]

theorem nonEmpty?_eq_self {α : Type} {o : Option (Mapping α)} (h : Holds o) :
    nonEmpty? o = o := by
  cases o with
  | none => rfl
  | some m => rw [nonEmpty?, Option.filter_some, h m rfl, Bool.not_false, if_pos rfl]

namespace Script

open Except (gives_ok gives_error gives_bind)

/-- What front matter says of a story, before it is checked what has a shape of its own. -/
structure Heading where
  title : String
  description : Option String
  background : Option String
  coverImage : Option String
  coverPrompt : Option String
  coverAspectRatio : Option String
  tags : List String
  published : Value
  slug : Option String
  state : Mapping Value
  style : Option (Mapping String)
  characters : Option (Mapping Value)

namespace Heading

variable (h : Heading)

/-- The characters, if there are any, as they are to be checked. -/
def characterValue : Value :=
  (h.characters.map (Value.ofMapping id)).getD .null

/-- What generated media are made from. -/
def making : List (String × Value) :=
  [("style", (h.style.map (Value.ofMapping Value.str)).getD .null),
    ("characters", h.characterValue)]

/-- The fields of the document of a heading. -/
def fields : List (String × Value) :=
  [("title", .str h.title), ("description", .ofString? h.description),
    ("background_story", .ofString? h.background), ("cover_image", .ofString? h.coverImage),
    ("cover_prompt", .ofString? h.coverPrompt),
    ("cover_aspect_ratio", .ofString? h.coverAspectRatio), ("tags", Schema.writeStrings h.tags),
    ("published", h.published), ("slug", .ofString? h.slug),
    ("initial_state", Value.ofMapping id h.state), ("ai", Value.record h.making)]

theorem nodup_fields : (h.fields.map Prod.fst).Nodup := by
  simp [fields]

/-- The document of a heading. -/
def document : Value :=
  .map (asEntries h.fields)

/-- The story of a heading with what has been checked. -/
def game (published : Bool) (state : InitialState) (characters : Option (Mapping Character)) :
    Game :=
  { title := h.title, description := h.description, background := h.background
    coverImage := h.coverImage, coverPrompt := h.coverPrompt
    coverAspectRatio := h.coverAspectRatio, tags := h.tags, published := published
    slug := h.slug, initialState := state
    making := { style := h.style, characters := characters } }

/-- Whether no text of a heading is blank, and nothing in it is there and empty. -/
structure Shown : Prop where
  title : allBlank h.title = false
  description : Shows h.description
  background : Shows h.background
  coverImage : Shows h.coverImage
  coverPrompt : Shows h.coverPrompt
  coverAspectRatio : Shows h.coverAspectRatio
  slug : Shows h.slug
  style : Holds h.style
  characters : Holds h.characters

end Heading

/-! ## Front matter gives a heading -/

theorem gives_styleDocument (entries : List (Value × Value)) :
    (styleDocument entries).Gives fun v => ∃ o : Option (Mapping String), Holds o ∧
      v = (o.map (Value.ofMapping Value.str)).getD .null := by
  unfold styleDocument
  split
  · exact gives_ok ⟨none, holds_none, rfl⟩
  · next hne =>
    intro v hv
    obtain ⟨texts, htexts, hv⟩ := Except.bind_eq_ok_iff.1 hv
    cases hv
    have hsome : texts ≠ [] := by
      rintro rfl
      rw [Except.mapM_eq_ok_iff] at htexts
      cases htexts
      exact hne rfl
    exact ⟨some (Mapping.ofList texts), holds_ofList hsome, rfl⟩

theorem gives_characterDocuments (v : Value) :
    (characterDocuments v).Gives fun u => ∃ o : Option (Mapping Value), Holds o ∧
      u = (o.map (Value.ofMapping id)).getD .null := by
  unfold characterDocuments
  split
  · exact gives_ok ⟨none, holds_none, rfl⟩
  · next hv =>
    split
    · next entries =>
      intro u hu
      obtain ⟨cs, hcs, hu⟩ := Except.bind_eq_ok_iff.1 hu
      cases hu
      have hsome : cs ≠ [] := by
        rintro rfl
        rw [Except.mapM_eq_ok_iff] at hcs
        cases hcs
        exact hv rfl
      exact ⟨some (Mapping.ofList cs), holds_ofList hsome, rfl⟩
    · exact gives_error _

/-- The document of front matter is that of a heading. -/
theorem gives_storyDocument (entries : List (Value × Value)) :
    (storyDocument entries).Gives fun v => ∃ h : Heading, h.Shown ∧ v = h.document := by
  refine Except.Gives.bind (gives_shows _) fun title htitle => ?_
  split
  · next title =>
    refine gives_bind fun state => gives_bind fun making => gives_bind fun style => ?_
    -- All texts but the title and the background are read in one way.
    have htext (name : String) : Except.Gives (do
        return (name, Value.ofString? (← shownText? (valueAt entries name))) :
          Except Failure (String × Value)) fun p =>
        ∃ o : Option String, Shows o ∧ p = (name, .ofString? o) :=
      Except.Gives.bind (gives_shows _) fun o ho => gives_ok ⟨o, ho, rfl⟩
    refine Except.Gives.bind (htext _) ?_
    rintro _ ⟨description, hdescription, rfl⟩
    refine Except.Gives.bind (gives_shows _) fun background hbackground => ?_
    refine Except.Gives.bind (htext _) ?_
    rintro _ ⟨coverImage, hcoverImage, rfl⟩
    refine Except.Gives.bind (htext _) ?_
    rintro _ ⟨coverPrompt, hcoverPrompt, rfl⟩
    refine Except.Gives.bind (htext _) ?_
    rintro _ ⟨coverAspectRatio, hcoverAspectRatio, rfl⟩
    refine gives_bind fun tags => ?_
    refine Except.Gives.bind (htext _) ?_
    rintro _ ⟨slug, hslug, rfl⟩
    refine gives_bind fun named => ?_
    refine Except.Gives.bind (gives_styleDocument _) ?_
    rintro _ ⟨style, hstyle, rfl⟩
    refine Except.Gives.bind (gives_characterDocuments _) ?_
    rintro _ ⟨characters, hcharacters, rfl⟩
    exact gives_ok ⟨⟨title, description, background, coverImage, coverPrompt, coverAspectRatio,
      tags, _, slug, named, style, characters⟩, ⟨htitle title rfl, hdescription, hbackground,
      hcoverImage, hcoverPrompt, hcoverAspectRatio, hslug, hstyle, hcharacters⟩, rfl⟩
  · exact gives_error _

/-! ## A heading gives a story -/

section

open Schema
open Schema.Checked (map_eq_ok seq_eq_ok)

variable {α : Type} {read : Value → Checked α} {fields : List (String × Value)} {name : String}
  {v : Value}

/-- A field of a document is read under its name. -/
theorem withDefault_record {default : α} {names : List String}
    (hdistinct : (fields.map Prod.fst).Nodup) (h : (name, v) ∈ fields) :
    withDefault (name :: names) default read (asEntries fields) = (read v).under name := by
  rw [withDefault, findField?_of_find? (find?_asEntries hdistinct h)]

/-- A field of a document is read under its second name if the first is not there. -/
theorem withDefault_record_second {default : α} {other : String}
    (hother : other ∉ fields.map Prod.fst) (hdistinct : (fields.map Prod.fst).Nodup)
    (h : (name, v) ∈ fields) :
    withDefault [other, name] default read (asEntries fields) = (read v).under name := by
  rw [withDefault, findField?, find?_asEntries_of_not_mem hother]
  dsimp only
  rw [findField?_of_find? (find?_asEntries hdistinct h)]

theorem withDefault_record_of_not_mem {default : α} {names : List String}
    (h : ∀ name ∈ names, name ∉ fields.map Prod.fst) :
    withDefault names default read (asEntries fields) = .ok default := by
  rw [withDefault, findField?_eq_none fun name hname => find?_asEntries_of_not_mem (h name hname)]

theorem optional_ofString? (o : Option String) :
    optional readString (.ofString? o) = .ok o := by
  cases o <;> rfl

section

variable {h : Heading}

/-- A text of a heading, which may be nothing, is read from its document. -/
theorem possible_heading {o : Option String} (hmem : (name, .ofString? o) ∈ h.fields) :
    possible name readString (asEntries h.fields) = .ok o := by
  rw [possible, withDefault_record h.nodup_fields hmem, optional_ofString?]
  rfl

end

theorem readMaking_making (h : Heading) :
    readMaking {} (Value.record h.making) = Making.mk h.style <$>
      (optional (readMapping (readCharacter {})) h.characterValue).under "characters" := by
  have hstyle : possible "style" (readMapping readString) (asEntries h.making) = .ok h.style := by
    rw [possible, Heading.making, withDefault_record (by simp) (.head _)]
    cases h.style with
    | none => rfl
    | some m =>
      rw [Option.map_some, Option.getD_some,
        optional_eq takesBack_string.mapping (neverNull_mapping _)]
      rfl
  show Making.mk <$> possible "style" (readMapping readString) (asEntries h.making) <*>
    possible "characters" (readMapping (readCharacter {})) (asEntries h.making) = _
  rw [hstyle, possible, Heading.making, withDefault_record (by simp) (.tail _ (.head _))]
  cases optional (readMapping (readCharacter {})) h.characterValue <;> rfl

/-- The story of a heading is that of the heading, once the three parts that have a shape of their
own are checked. -/
theorem readGame_document (h : Heading) :
    readGame {} h.document = h.game <$> (readBool h.published).under "published" <*>
      (readInitialState {} (Value.ofMapping id h.state)).under "initial_state" <*>
      ((optional (readMapping (readCharacter {})) h.characterValue).under "characters").under
        "ai" := by
  have htitle : required ["title"] readString (asEntries h.fields) = .ok h.title := by
    rw [required, findField?_of_find? (find?_asEntries h.nodup_fields (.head _))]
    rfl
  have hbackground : withDefault ["backgroundStory", "background_story"] none
      (optional readString) (asEntries h.fields) = .ok h.background := by
    rw [withDefault_record_second (by simp [Heading.fields]) h.nodup_fields
      (v := .ofString? h.background) (by simp [Heading.fields]), optional_ofString?]
    rfl
  have htags : withDefault ["tags"] [] (readList readString) (asEntries h.fields) =
      .ok h.tags := by
    rw [withDefault_record h.nodup_fields (v := writeStrings h.tags) (by simp [Heading.fields]),
      takesBack_strings]
    rfl
  dsimp only [readGame, record, Heading.document]
  rw [htitle, possible_heading (o := h.description) (by simp [Heading.fields]), hbackground,
    possible_heading (o := h.coverImage) (by simp [Heading.fields]),
    possible_heading (o := h.coverPrompt) (by simp [Heading.fields]),
    possible_heading (o := h.coverAspectRatio) (by simp [Heading.fields]), htags,
    withDefault_record h.nodup_fields (v := h.published) (by simp [Heading.fields]),
    possible_heading (o := h.slug) (by simp [Heading.fields]),
    withDefault_record_second (by simp [Heading.fields]) h.nodup_fields
      (v := Value.ofMapping id h.state) (by simp [Heading.fields]),
    withDefault_record h.nodup_fields (v := Value.record h.making) (by simp [Heading.fields]),
    withDefault_record_of_not_mem (by simp [Heading.fields]),
    withDefault_record_of_not_mem (by simp [Heading.fields]), readMaking_making]
  -- Each of the three parts may be at fault, and then its problems are those of the whole.
  cases (readBool h.published).under "published" <;>
    cases (readInitialState {} (Value.ofMapping id h.state)).under "initial_state" <;>
    cases optional (readMapping (readCharacter {})) h.characterValue <;> rfl

end

/-! ## The heading of written front matter -/

/-- The heading of a story, with its variables and characters as they are written. -/
def Heading.ofGame (g : Game) : Heading :=
  { title := g.title, description := g.description, background := g.background
    coverImage := g.coverImage, coverPrompt := g.coverPrompt
    coverAspectRatio := g.coverAspectRatio, tags := g.tags, published := .bool g.published
    slug := g.slug, state := g.initialState.map Schema.writeInitialValue, style := g.making.style
    characters := g.making.characters.map (Mapping.map Schema.writeCharacter) }

section

variable {α : Type} {write : α → Value}

theorem ofMapping_map (m : Mapping α) :
    Value.ofMapping id (m.map write) = Value.ofMapping write m := by
  rw [Value.ofMapping, Mapping.toList_map, List.map_map]
  rfl

theorem ofList_toList (m : Mapping α) : Mapping.ofList m.toList = m :=
  Mapping.ext_toList (Mapping.toList_ofList m.nodup)

/-- The entries of a written mapping. -/
def entriesWritten (write : α → Value) (m : Mapping α) : List (Value × Value) :=
  asEntries (m.toList.map fun p => (p.1, write p.2))

theorem ofMapping_eq (write : α → Value) (m : Mapping α) :
    Value.ofMapping write m = .map (entriesWritten write m) := rfl

theorem isEmpty_entriesWritten (write : α → Value) (m : Mapping α) :
    (entriesWritten write m).isEmpty = m.isEmpty := by
  rw [entriesWritten, asEntries, List.isEmpty_map, List.isEmpty_map, Mapping.isEmpty]

/-- The names of a written mapping are texts, so each entry is read as it was written. -/
theorem mapM_entriesWritten {β : Type} {read : Value × Value → Except Failure (String × β)}
    {f : α → β} {m : Mapping α}
    (h : ∀ p ∈ m.toList, read (.str p.1, write p.2) = .ok (p.1, f p.2)) :
    (entriesWritten write m).mapM read = .ok (m.map f).toList := by
  rw [Except.mapM_eq_ok_iff, entriesWritten, asEntries, Mapping.toList_map, List.map_map,
    List.forall₂_map_left_iff, List.forall₂_map_right_iff, List.forall₂_same]
  exact h

/-- Written variables are found by their names. -/
theorem byName_entriesWritten (m : Mapping α) :
    byName (entriesWritten write m) = .ok (m.map write) := by
  rw [byName, mapM_entriesWritten (f := write) fun p _ => rfl]
  exact congrArg Except.ok (ofList_toList _)

end

/-- A written style is read back. -/
theorem styleDocument_written {o : Option (Mapping String)} (h : Holds o) :
    ∃ entries, entriesOr .styleNotMapping ((o.map (Value.ofMapping Value.str)).getD .null) =
        .ok entries ∧
      styleDocument entries = .ok ((o.map (Value.ofMapping Value.str)).getD .null) := by
  cases o with
  | none => exact ⟨[], rfl, rfl⟩
  | some m =>
    refine ⟨entriesWritten Value.str m, rfl, ?_⟩
    have hne : (entriesWritten Value.str m).isEmpty = false := by
      rw [isEmpty_entriesWritten, h m rfl]
    have hsame : m.map id = m := Mapping.ext_toList (List.map_id m.toList)
    rw [styleDocument, hne, mapM_entriesWritten (f := id) fun p _ => rfl, hsame]
    exact congrArg (Except.ok ∘ Value.ofMapping Value.str) (ofList_toList m)

/-- Written characters are read back as they are written. -/
theorem characterDocuments_written {o : Option (Mapping Character)}
    (h : Holds o) :
    characterDocuments ((o.map (Value.ofMapping Schema.writeCharacter)).getD .null) =
      .ok (((o.map (Mapping.map Schema.writeCharacter)).map (Value.ofMapping id)).getD .null) := by
  cases o with
  | none => rfl
  | some m =>
    have hcounts :
        (Value.map (entriesWritten Schema.writeCharacter m)).countsAsNothing = false := by
      rw [Value.countsAsNothing, isEmpty_entriesWritten, h m rfl]
    rw [Option.map_some, Option.getD_some, ofMapping_eq, characterDocuments, hcounts,
      mapM_entriesWritten (f := Schema.writeCharacter) fun p _ => rfl]
    exact congrArg (Except.ok ∘ Value.ofMapping id) (ofList_toList _)

/-- Written variables are read back as they are written, also if there are none. -/
theorem byName_written (m : InitialState) :
    ∃ entries, entriesOr .stateNotMapping
        (((nonEmpty? (some m)).map (Value.ofMapping Schema.writeInitialValue)).getD .null) =
          .ok entries ∧
      byName entries = .ok (m.map Schema.writeInitialValue) := by
  cases hm : m.isEmpty with
  | true =>
    have hnone : nonEmpty? (some m) = none := by
      rw [nonEmpty?, Option.filter_some, hm, Bool.not_true, if_neg Bool.false_ne_true]
    have hempty : m.map Schema.writeInitialValue = Mapping.empty :=
      Mapping.ext_toList (by rw [Mapping.toList_map, List.isEmpty_iff.1 hm]; rfl)
    rw [hnone, hempty]
    exact ⟨[], rfl, rfl⟩
  | false =>
    have hsome : nonEmpty? (some m) = some m :=
      nonEmpty?_eq_self fun _ hn => Option.some.inj hn ▸ hm
    rw [hsome]
    exact ⟨entriesWritten Schema.writeInitialValue m, rfl, byName_entriesWritten m⟩

/-- The record of what generated media are made from is read as its fields, also if it is left
out. -/
theorem entriesOr_nonEmptyRecord? (fields : List (String × Option Value)) (cause : Cause) :
    entriesOr cause (if ((nonEmptyRecord? fields).getD .null).countsAsNothing then .null
      else (nonEmptyRecord? fields).getD .null) = .ok (asEntries (heldFields fields)) := by
  rw [nonEmptyRecord?]
  cases hheld : heldFields fields with
  | nil => rfl
  | cons p ps => rfl

/-- Tags are read back, also if there are none. -/
theorem tagTexts_written (tags : List String) :
    tagTexts ((if tags.isEmpty then none else some (Schema.writeStrings tags)).getD .null) =
      .ok tags := by
  cases tags with
  | nil => rfl
  | cons t ts =>
    show ((t :: ts).map Value.str).mapM textOf = .ok (t :: ts)
    exact mapM_written fun _ _ => rfl

theorem nonEmptyText?_eq {o : Option String} (h : Shows o) :
    nonEmptyText? o = o.map Value.str := by
  cases o with
  | none => rfl
  | some t =>
    have ht : t.isEmpty = false := by
      cases hempty : t.isEmpty with
      | false => rfl
      | true =>
        obtain rfl := String.isEmpty_iff.1 hempty
        cases h "" rfl
    rw [nonEmptyText?, Option.filter_some, ht, Bool.not_false, if_pos rfl]

/-- The document of front matter is made of what is read from its entries. -/
theorem storyDocument_eq {entries state making style : List (Value × Value)} {h : Heading}
    (htitle : shownText? (valueAt entries "title") = .ok (some h.title))
    (hstate : entriesOr .stateNotMapping (valueAtEither entries "initialState" "state") = .ok state)
    (hmaking : entriesOr .makingNotMapping (if (valueAt entries "ai").countsAsNothing then .null
      else valueAt entries "ai") = .ok making)
    (hstyle : entriesOr .styleNotMapping (valueAt making "style") = .ok style)
    (hdescription : shownText? (valueAt entries "description") = .ok h.description)
    (hbackground : shownText? (valueAtEither entries "backgroundStory" "background_story") =
      .ok h.background)
    (hcoverImage : shownText? (valueAt entries "cover_image") = .ok h.coverImage)
    (hcoverPrompt : shownText? (valueAt entries "cover_prompt") = .ok h.coverPrompt)
    (hcoverAspectRatio : shownText? (valueAt entries "cover_aspect_ratio") =
      .ok h.coverAspectRatio)
    (htags : tagTexts (valueAt entries "tags") = .ok h.tags)
    (hpublished : (match valueAt entries "published" with
      | .null => .bool false
      | v => v) = h.published)
    (hslug : shownText? (valueAt entries "slug") = .ok h.slug)
    (hnamed : byName state = .ok h.state)
    (hstyles : styleDocument style = .ok ((h.style.map (Value.ofMapping Value.str)).getD .null))
    (hcharacters : characterDocuments (valueAt making "characters") = .ok h.characterValue) :
    storyDocument entries = .ok h.document := by
  unfold storyDocument
  rw [htitle, hstate]
  dsimp only [bind, Except.bind]
  rw [hmaking]
  dsimp only
  rw [hstyle, hdescription, hbackground, hcoverImage, hcoverPrompt, hcoverAspectRatio, htags, hslug,
    hnamed]
  dsimp only
  rw [hstyles]
  dsimp only
  rw [hcharacters, Heading.document, Heading.fields, ← hpublished]
  rfl

/-- What generated media are made from, with what of it is there. -/
def makingFields (m : Making) : List (String × Option Value) :=
  [("style", m.style.map (Value.ofMapping Value.str)),
    ("characters", m.characters.map (Value.ofMapping Schema.writeCharacter))]

/-- The fields of written front matter where nothing is there and empty. -/
def metadataFields (g : Game) : List (String × Option Value) :=
  [("title", some (.str g.title)), ("description", g.description.map Value.str),
    ("backgroundStory", g.background.map Value.str), ("cover_image", g.coverImage.map Value.str),
    ("cover_prompt", g.coverPrompt.map Value.str),
    ("cover_aspect_ratio", g.coverAspectRatio.map Value.str),
    ("tags", if g.tags.isEmpty then none else some (Schema.writeStrings g.tags)),
    ("published", if g.published then some (.bool true) else none),
    ("slug", g.slug.map Value.str),
    ("state", (nonEmpty? (some g.initialState)).map (Value.ofMapping Schema.writeInitialValue)),
    ("ai", nonEmptyRecord? (makingFields g.making))]

section

variable {g : Game}

theorem metadataEntries_eq (h : (Heading.ofGame g).Shown) :
    metadataEntries g = heldFields (metadataFields g) := by
  rw [metadataEntries, nonEmptyText?_eq (o := g.description) h.description,
    nonEmptyText?_eq (o := g.background) h.background,
    nonEmptyText?_eq (o := g.coverImage) h.coverImage,
    nonEmptyText?_eq (o := g.coverPrompt) h.coverPrompt,
    nonEmptyText?_eq (o := g.coverAspectRatio) h.coverAspectRatio,
    nonEmptyText?_eq (o := g.slug) h.slug, nonEmpty?_eq_self (o := g.making.style) h.style,
    nonEmpty?_eq_self (holds_map_iff.1 h.characters)]
  rfl

theorem nodup_metadataFields : ((metadataFields g).map Prod.fst).Nodup := by
  simp [metadataFields]

theorem find?_metadataFields {name : String} {o : Option Value}
    (h : (name, o) ∈ metadataFields g) :
    Value.find? (asEntries (heldFields (metadataFields g))) name = o :=
  find?_heldFields nodup_metadataFields h

theorem valueAt_metadataFields {name : String} {o : Option Value}
    (h : (name, o) ∈ metadataFields g) :
    valueAt (asEntries (heldFields (metadataFields g))) name = o.getD .null :=
  valueAt_heldFields nodup_metadataFields h

/-- A text that may be missing is read from written front matter. -/
theorem shownText?_metadataFields {name : String} {o : Option String}
    (h : (name, o.map Value.str) ∈ metadataFields g) (ho : Shows o) :
    shownText? (valueAt (asEntries (heldFields (metadataFields g))) name) = .ok o := by
  rw [valueAt_metadataFields h, shownText?_written ho]

/-- The document of the front matter that is written for a story is that of the story's own
heading. -/
theorem storyDocument_metadataEntries (h : (Heading.ofGame g).Shown) :
    storyDocument (asEntries (metadataEntries g)) = .ok (Heading.ofGame g).document := by
  obtain ⟨state, hstate, hnamed⟩ := byName_written g.initialState
  obtain ⟨style, hstyle, hstyles⟩ := styleDocument_written (o := g.making.style) h.style
  rw [metadataEntries_eq h]
  have hmaking {name : String} {value : Option Value}
      (hmem : (name, value) ∈ makingFields g.making) :
      valueAt (asEntries (heldFields (makingFields g.making))) name = value.getD .null :=
    valueAt_heldFields (by simp [makingFields]) hmem
  refine @storyDocument_eq _ state (asEntries (heldFields (makingFields g.making))) style _ ?title
    ?state ?making ?style
    (shownText?_metadataFields (o := g.description) (by simp [metadataFields]) h.description)
    ?background
    (shownText?_metadataFields (o := g.coverImage) (by simp [metadataFields]) h.coverImage)
    (shownText?_metadataFields (o := g.coverPrompt) (by simp [metadataFields]) h.coverPrompt)
    (shownText?_metadataFields (o := g.coverAspectRatio) (by simp [metadataFields])
      h.coverAspectRatio) ?tags ?published
    (shownText?_metadataFields (o := g.slug) (by simp [metadataFields]) h.slug) hnamed hstyles
    ?characters
  case title =>
    rw [valueAt_metadataFields (o := some (.str g.title)) (by simp [metadataFields])]
    refine shownText?_written (o := some g.title) fun t ht => ?_
    cases ht
    exact h.title
  case state =>
    -- The variables are written under the older of their two names.
    rw [valueAtEither, find?_heldFields_of_not_mem (by simp [metadataFields]), Option.none_or,
      find?_metadataFields (o := (nonEmpty? (some g.initialState)).map
        (Value.ofMapping Schema.writeInitialValue)) (by simp [metadataFields]), hstate]
  case making =>
    rw [valueAt_metadataFields (o := nonEmptyRecord? (makingFields g.making))
      (by simp [metadataFields]), entriesOr_nonEmptyRecord?]
  case style => rw [hmaking (.head _), hstyle]
  case background =>
    rw [valueAtEither, find?_metadataFields (o := g.background.map Value.str)
      (by simp [metadataFields]), find?_heldFields_of_not_mem (by simp [metadataFields]),
      Option.or_none, shownText?_written (o := g.background) h.background]
    rfl
  case tags =>
    rw [valueAt_metadataFields (o := if g.tags.isEmpty then none
      else some (Schema.writeStrings g.tags)) (by simp [metadataFields]), tagTexts_written]
    rfl
  case published =>
    rw [valueAt_metadataFields (o := if g.published then some (.bool true) else none)
      (by simp [metadataFields])]
    cases hpublished : g.published <;> simp [Heading.ofGame, hpublished]
  case characters =>
    rw [hmaking (.tail _ (.head _)), characterDocuments_written (holds_map_iff.1 h.characters)]
    rfl

end

/-! ## Front matter again -/

section

open Schema
open Schema.Checked (map_eq_ok seq_eq_ok)

variable {entries : List (Value × Value)} {g : Game}

/-- The story of its own heading is the story itself, as far as front matter tells. -/
theorem readGame_ofGame (g : Game) :
    readGame {} (Heading.ofGame g).document =
      .ok { g with scenes := Mapping.empty, start := "start" } := by
  have hstate : readInitialState {} (Value.ofMapping id (Heading.ofGame g).state) =
      .ok g.initialState := by
    rw [readInitialState, Heading.ofGame, ofMapping_map]
    exact (takesBack_initialValue {}).mapping g.initialState
  have hcharacters : optional (readMapping (readCharacter {})) (Heading.ofGame g).characterValue =
      .ok g.making.characters := by
    rw [Heading.characterValue, Heading.ofGame]
    cases g.making.characters with
    | none => rfl
    | some m =>
      rw [Option.map_some, Option.map_some, Option.getD_some, ofMapping_map]
      exact optional_eq (takesBack_character {}).mapping (neverNull_mapping _) m
  rw [readGame_document, hstate, hcharacters]
  rfl

/-- A mapping that is read has as many names at least as a mapping that is not empty. -/
theorem holds_of_optional {α : Type} {read : Value → Checked α} {o : Option (Mapping Value)}
    {found : Option (Mapping α)} (ho : Holds o)
    (h : optional (readMapping read) ((o.map (Value.ofMapping id)).getD .null) = .ok found) :
    Holds found := by
  cases o with
  | none =>
    cases h
    exact holds_none
  | some m =>
    obtain ⟨n, hn, rfl⟩ := Checked.exists_of_map_eq_ok (f := some) h
    obtain ⟨ps, hps, rfl⟩ := Checked.exists_of_map_eq_ok hn
    refine holds_ofList ?_
    rintro rfl
    -- The first name has an entry of its own.
    cases hm : m.toList with
    | nil => exact absurd (ho m rfl) (by simp [Mapping.isEmpty, hm])
    | cons p rest =>
      rw [hm] at hps
      obtain ⟨f, qs, hf, -, hcons⟩ := Checked.exists_of_seq_eq_ok hps
      obtain ⟨q, -, rfl⟩ := Checked.exists_of_map_eq_ok hf
      cases hcons

/-- What is read of front matter has a heading in which nothing is blank or empty. -/
theorem shown_of_readMetadata (h : readMetadata entries = .ok g) :
    (Heading.ofGame g).Shown ∧ g.start = "start" := by
  obtain ⟨document, hdocument, h⟩ := Except.bind_eq_ok_iff.1 h
  obtain ⟨heading, hshown, rfl⟩ := gives_storyDocument entries document hdocument
  cases hread : readGame {} heading.document with
  | bad ps =>
    rw [hread] at h
    cases h
  | ok told =>
    rw [hread] at h
    cases h
    rw [readGame_document] at hread
    obtain ⟨f, characters, hrest, hcharacters, rfl⟩ := Checked.exists_of_seq_eq_ok hread
    obtain ⟨f', state, hfirst, hstate, rfl⟩ := Checked.exists_of_seq_eq_ok hrest
    obtain ⟨published, hpublished, rfl⟩ := Checked.exists_of_map_eq_ok hfirst
    have hholds : Holds characters := holds_of_optional hshown.characters
      (Checked.eq_ok_of_under (Checked.eq_ok_of_under hcharacters))
    exact ⟨{ hshown with characters := holds_map_iff.2 hholds }, rfl⟩

/-- Written front matter is read as the same story, if nothing in the story is blank or empty. -/
theorem readMetadata_metadataEntries (h : (Heading.ofGame g).Shown) :
    readMetadata (asEntries (metadataEntries g)) =
      .ok { g with scenes := Mapping.empty, start := "start" } := by
  rw [readMetadata, storyDocument_metadataEntries h]
  show ((readGame {} (Heading.ofGame g).document).toExcept).mapError Failure.problems = _
  rw [readGame_ofGame]
  rfl

/-- The story that front matter describes, with scenes. -/
def storyOf (scenes : Mapping (Scene Generated)) (entries : List (Value × Value)) :
    Except Failure Game := do
  return { (← readMetadata entries) with scenes := scenes }

/-- **Front matter has a canonical form.** Whatever entries a story is read from, the entries that
are written for it are read as the same story, with the same scenes: fields that are left out have
their defaults, and texts, tags, variables, characters and styles are what they were. -/
theorem storyOf_canonical {scenes : Mapping (Scene Generated)}
    (h : storyOf scenes entries = .ok g) :
    storyOf scenes (asEntries (metadataEntries g)) = .ok g := by
  obtain ⟨told, htold, h⟩ := Except.bind_eq_ok_iff.1 h
  cases h
  obtain ⟨hshown, hstart⟩ := shown_of_readMetadata htold
  have hagain := readMetadata_metadataEntries (g := { told with scenes := scenes }) hshown
  rw [storyOf, hagain]
  show Except.ok { told with scenes := scenes, start := "start" } = _
  rw [← hstart]

/-- Front matter that leaves much to be filled in: a number for a title, one tag alone, a blank
description, an older name, a word for a truth value, and a character without a name. -/
def sparseEntries : List (Value × Value) :=
  [(.str "title", .int 7), (.str "description", .str " "), (.str "tags", .str "cave"),
    (.str "background_story", .str "Long ago"), (.str "published", .str "Yes"),
    (.str "state", .map [(.str "hp", .map [(.str "value", .int 3), (.str "trigger",
      .map [(.str "scene", .str "end"), (.str "condition", .str "<= 0")])]), (.int 5, .bool true)]),
    (.str "ai", .map [(.str "style", .map []), (.str "characters", .map [(.str "hero", .null)])])]

/-- The story of the sparse front matter. -/
def sparseGame : Game :=
  { title := "7", background := some "Long ago", tags := ["cave"], published := true
    initialState := Mapping.ofList
      [("hp", .described
          { value := .int 3, trigger := some { condition := "<= 0", scene := "end" } }),
        ("5", .plain (.bool true))]
    making := { characters := some (Mapping.ofList [("hero", { name := "hero" })]) }
    scenes := Mapping.ofList [("start", { id := "start", nodes := [] })] }

/-- The sparse front matter is written out in full, and read again. -/
theorem sparseEntries_canonical :
    storyOf sparseGame.scenes sparseEntries = .ok sparseGame ∧
      (metadataEntries sparseGame).map Prod.fst =
        ["title", "backgroundStory", "tags", "published", "state", "ai"] ∧
      storyOf sparseGame.scenes (asEntries (metadataEntries sparseGame)) = .ok sparseGame := by
  have h : storyOf sparseGame.scenes sparseEntries = .ok sparseGame := by cbv
  exact ⟨h, rfl, storyOf_canonical h⟩

end

end Script

end Storyline
