import Storyline.Script.Metadata
import Storyline.Story.Node

/-!
# Generated media of a script

The media that a fence with data describes.  The data is a YAML mapping with a prompt and what else
the kind of media takes; like front matter it is read generously.

## Main definitions

* `loadBlock`: the entries of a fence
* `nameList`, `variableNotes`: lists of names, and variables with what is said of them
* `readMedia`: the media that entries describe
-/

namespace Storyline.Script

open Text

/-- A fault in a fence at a place. -/
def Failure.block (fence : String) (place : Place) (cause : Cause) : Failure :=
  .fault { cause := cause, place := { place with block := some fence } }

/-- The entries of the content of a fence; an empty fence has none.  The lines of the content may be
indented together. -/
def loadBlock (fence content : String) (place : Place) :
    Except Failure (List (Value × Value)) :=
  match Yaml.load (dedent content.toList) with
  | .ok .null => .ok []
  | .ok (.map entries) => .ok entries
  | .ok _ => .error (.block fence place .blockNotMapping)
  | .error (.problem p line) =>
    .error (.block fence { place with line := place.line.map (· + line + 1) } (.blockProblem p))
  | .error (.unreadable c offset) => .error (.block fence place (.blockCharacter c offset))
  | .error (.defect d) => .error (.defect d)

/-- A list of names: names with commas between them, a list, or a single name.  Empty names do not
count, and a list without names is none. -/
def nameList (v : Value) : Except Failure (Option (List String)) := do
  let names ← match v with
    | .null => pure []
    | .str s => pure ((splitAt ',' s.toList).map fun n => String.ofList (trim n))
    | .list items => items.mapM fun i => do return trimmed (← textOf i)
    | v => do pure [← textOf v]
  let names := names.filter fun n => !n.isEmpty
  return if names.isEmpty then none else some names

/-- The variables in one entry of a list, with what is said of them. -/
def variableNotesOf : Value → Except Failure (List (String × String))
  | .null => .ok []
  | .map entries => entries.mapM fun e => do return (← textOf e.1, (← textOf? e.2).getD "")
  | v => do return [(← textOf v, "")]

/-- The variables of a game within the story, with what is said of them: a mapping, a list of
mappings and names, or a single name. -/
def variableNotes (v : Value) : Except Failure (Option (Mapping String)) := do
  let entries := match v with
    | .list items => items
    | v => [v]
  return nonEmpty? (some (Mapping.ofList (← entries.mapM variableNotesOf).flatten))

/-- The kind of generated sound, under the first of its names that is there. -/
def readAudioKind (fence : String) (place : Place) (data : List (Value × Value)) :
    Except Failure AudioKind :=
  let found := (["type", "audioType", "audio_type"].findSome? (Value.find? data)).getD .null
  let known := match found with
    | .str s => AudioKind.ofName? s
    | _ => none
  match known with
  | some kind => .ok kind
  | none => do
    let shown ← writtenOut Value.literal found
    throw (.block fence place (.badAudioKind shown))

/-- The media that the entries of a fence describe. -/
def readMedia (fence : String) (place : Place) (data : List (Value × Value)) :
    Except Failure Generated := do
  let prompt ← shownText? (valueAt data "prompt")
  let some prompt := prompt.map trimmed | throw (.block fence place .noPrompt)
  let url ← textOf? (valueAt data "url")
  match fence with
  | "image-gen" =>
    let character ← textOf? (valueAt data "character")
    return .image prompt character (← nameList (valueAt data "characters")) url
  | "audio-gen" => return .audio (← readAudioKind fence place data) prompt url
  | "video-gen" => return .video prompt url
  | "minigame-gen" =>
    return .minigame prompt (← variableNotes (valueAt data "variables")) url
  | _ => throw (.block fence place .unknownFence)

end Storyline.Script
