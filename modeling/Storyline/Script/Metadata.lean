import Storyline.Schema.Document
import Storyline.Script.Fault
import Storyline.Script.Line
import Storyline.Value.Text
import Storyline.Yaml.Document

/-!
# Front matter of a script

A script begins with front matter between two rules: a YAML mapping that says what the story is
called, what its variables are and what its media are made from.  Authors write it by hand, so it is
read generously: any value stands for its text where text is wanted, and blank text counts as
missing.

## Main definitions

* `Parts`, `split?`: the front matter and the scenes of a script
* `loadMetadata`: the entries of front matter
* `storyDocument`: the story that front matter describes, as a document
* `readMetadata`: that story, still without scenes

## Main results

* `isRule_of_untilRule?`: front matter ends at a rule
-/

namespace Storyline.Script

open Text

/-- The front matter of a script, the text of its scenes, and the line on which that text begins. -/
structure Parts where
  metadata : String
  body : String
  bodyLine : Nat
  deriving Repr, DecidableEq

/-- The lines before the first rule, and those after it. -/
def untilRule? : List (List Char) → Option (List (List Char) × List (List Char))
  | [] => none
  | l :: ls => if isRule l then some ([], ls) else (untilRule? ls).map fun p => (l :: p.1, p.2)

/-- Front matter ends at a rule, and holds none. -/
theorem isRule_of_untilRule? {ls : List (List Char)} {p : List (List Char) × List (List Char)}
    (h : untilRule? ls = some p) :
    (∃ l, isRule l = true ∧ ls = p.1 ++ l :: p.2) ∧ ∀ l ∈ p.1, isRule l = false := by
  induction ls generalizing p with
  | nil => simp [untilRule?] at h
  | cons l ls ih =>
    unfold untilRule? at h
    split at h
    · next hl =>
      cases h
      exact ⟨⟨l, hl, rfl⟩, by simp⟩
    · next hl =>
      obtain ⟨x, hx, rfl⟩ := Option.map_eq_some_iff.1 h
      obtain ⟨⟨m, hm, he⟩, ha⟩ := ih hx
      refine ⟨⟨m, hm, by rw [he]; rfl⟩, ?_⟩
      intro k hk
      rcases List.mem_cons.1 hk with rfl | hk
      · simpa using hl
      · exact ha k hk

/-- The parts of lines, of which the first that is not blank must be a rule. -/
def splitLines? (ls : List (List Char)) : Option Parts :=
  let blank := ls.takeWhile fun l => (trim l).isEmpty
  match ls.drop blank.length with
  | [] => none
  | l :: rest =>
    if isRule l then
      (untilRule? rest).map fun p =>
        { metadata := String.ofList (unlines p.1)
          body := String.ofList (unlines p.2)
          bodyLine := blank.length + p.1.length + 3 }
    else none

/-- The parts of a script.  Byte order marks in front do not count. -/
def split? (source : String) : Option Parts :=
  splitLines? (lines (normalizeBreaks (source.toList.dropWhile (· = '\uFEFF'))))

/-- The entries of front matter. -/
def loadMetadata (text : String) : Except Failure (List (Value × Value)) :=
  match Yaml.load text.toList with
  | .ok (.map entries) => .ok entries
  | .ok _ => .error (.metadata .notMetadata)
  | .error (.problem p line) => .error (.metadata (.metadataProblem p line))
  | .error (.unreadable c place) => .error (.metadata (.metadataCharacter c place))
  | .error (.defect d) => .error (.defect d)

/-! ## Values as text -/

/-- A value as it is written, if there is room for the calls: one for each collection. -/
def writtenOut (write : Value → Except NumberFault String) (v : Value) : Except Failure String :=
  if Yaml.callRoom < v.depth then .error (.defect .recursion) else (write v).mapError .ofNumber

/-- The text that stands for a value. -/
def textOf (v : Value) : Except Failure String :=
  writtenOut Value.text v

/-- The text that stands for a value that may be nothing. -/
def textOf? : Value → Except Failure (Option String)
  | .null => .ok none
  | v => do return some (← textOf v)

/-- The text that stands for a value, unless it is blank. -/
def shownText? (v : Value) : Except Failure (Option String) := do
  return (← textOf? v).filter fun t => !allBlank t

/-- Values by the texts that stand for their keys. -/
def byName (entries : List (Value × Value)) : Except Failure (Mapping Value) := do
  return Mapping.ofList (← entries.mapM fun e => do return (← textOf e.1, e.2))

/-- The value at a name, nothing if it is not there. -/
def valueAt (entries : List (Value × Value)) (name : String) : Value :=
  (Value.find? entries name).getD .null

/-- The value at the first of two names that is there. -/
def valueAtEither (entries : List (Value × Value)) (name other : String) : Value :=
  ((Value.find? entries name).or (Value.find? entries other)).getD .null

/-! ## The parts of front matter -/

/-- The entries of a mapping that may be missing; anything else is a fault. -/
def entriesOr (cause : Cause) : Value → Except Failure (List (Value × Value))
  | .null => .ok []
  | .map entries => .ok entries
  | _ => .error (.metadata cause)

/-- The tags of a story: a list, or a single one. -/
def tagTexts : Value → Except Failure (List String)
  | .null => .ok []
  | .list items => items.mapM textOf
  | v => do return [← textOf v]

/-- A character: a mapping, or only a name, which is the name it goes by if it is blank. -/
def characterDocument (e : Value × Value) : Except Failure (String × Value) := do
  let id ← textOf e.1
  match e.2 with
  | .map entries => return (id, .map entries)
  | v => return (id, Value.record [("name", .str ((← shownText? v).getD id))])

/-- The characters of a story. -/
def characterDocuments (v : Value) : Except Failure Value :=
  if v.countsAsNothing then .ok .null
  else match v with
    | .map entries => do
      return Value.ofMapping id (Mapping.ofList (← entries.mapM characterDocument))
    | _ => .error (.metadata .charactersNotMapping)

/-- The style of a story: a mapping from names to texts. -/
def styleDocument (entries : List (Value × Value)) : Except Failure Value := do
  if entries.isEmpty then return .null
  let texts ← entries.mapM fun e => do return (← textOf e.1, ← textOf e.2)
  return Value.ofMapping Value.str (Mapping.ofList texts)

/-- The story that front matter describes, as a document without scenes. -/
def storyDocument (entries : List (Value × Value)) : Except Failure Value := do
  let title ← shownText? (valueAt entries "title")
  let some title := title | throw (.metadata .noTitle)
  let state ← entriesOr .stateNotMapping (valueAtEither entries "initialState" "state")
  let making := valueAt entries "ai"
  let making ← entriesOr .makingNotMapping (if making.countsAsNothing then .null else making)
  let style ← entriesOr .styleNotMapping (valueAt making "style")
  let text (name : String) : Except Failure (String × Value) := do
    return (name, .ofString? (← shownText? (valueAt entries name)))
  let description ← text "description"
  let background ← shownText? (valueAtEither entries "backgroundStory" "background_story")
  let coverImage ← text "cover_image"
  let coverPrompt ← text "cover_prompt"
  let coverAspectRatio ← text "cover_aspect_ratio"
  let tags ← tagTexts (valueAt entries "tags")
  let published := match valueAt entries "published" with
    | .null => .bool false
    | v => v
  let slug ← text "slug"
  let state ← byName state
  let style ← styleDocument style
  let characters ← characterDocuments (valueAt making "characters")
  return Value.record [("title", .str title), description,
    ("background_story", .ofString? background), coverImage, coverPrompt, coverAspectRatio,
    ("tags", .list (tags.map .str)), ("published", published), slug,
    ("initial_state", Value.ofMapping id state),
    ("ai", Value.record [("style", style), ("characters", characters)])]

/-- The story that front matter describes, without scenes. -/
def readMetadata (entries : List (Value × Value)) : Except Failure Game := do
  ((Schema.readGame {} (← storyDocument entries)).toExcept).mapError .problems

end Storyline.Script
