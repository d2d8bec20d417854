import Storyline.Yaml.Fault
import Storyline.Schema.Checked

/-!
# Faults of a script

Why a script is not a story, and where the fault is.

## Main definitions

* `Cause`, `Place`, `Fault`: what is wrong, where, and both
* `Fault.message`: the words of a fault, with its place
* `Failure`: a fault, the problems of the story as a document, or a value that means nothing
-/

namespace Storyline.Script

/-- The fences around data from which media are generated. -/
def mediaFences : List String :=
  ["image-gen", "audio-gen", "video-gen", "minigame-gen"]

/-- What is wrong with a script. -/
inductive Cause where
  | noFrontMatter
  | notMetadata
  /-- A YAML problem in the front matter, at a line counted from zero. -/
  | metadataProblem (p : Yaml.Problem) (line : Nat)
  | metadataCharacter (c : Char) (place : Nat)
  | noTitle
  | stateNotMapping
  | makingNotMapping
  | styleNotMapping
  | charactersNotMapping
  | unclosedFence
  | blockProblem (p : Yaml.Problem)
  | blockCharacter (c : Char) (place : Nat)
  | blockNotMapping
  | noPrompt
  /-- A kind of generated sound that is not known, written out. -/
  | badAudioKind (found : String)
  | unknownFence
  | unknownForm (kind : String)
  deriving Repr, DecidableEq

/-- Where a fault is, as far as that is known. -/
structure Place where
  scene : Option String := none
  node : Option Nat := none
  line : Option Nat := none
  block : Option String := none
  deriving Repr, DecidableEq

/-- What is wrong, and where. -/
structure Fault where
  cause : Cause
  place : Place := {}
  deriving Repr, DecidableEq

/-- The words of a cause in a block. What a reader of YAML itself would add, an excerpt of the text
with a mark under the place, is left out; the line says the same. -/
def Cause.message (block : String) : Cause → String
  | .noFrontMatter | .notMetadata => "YAML front matter is missing or invalid"
  | .metadataProblem p line =>
    s!"YAML parsing failed: {p.message} (front matter line {line + 1})"
  | .metadataCharacter c place => "YAML parsing failed: " ++ Yaml.unreadableMessage c place
  | .noTitle => "Title is required"
  | .stateNotMapping => "Initial state must be a mapping of variable names"
  | .makingNotMapping => "ai must be a mapping"
  | .styleNotMapping => "ai.style must be a mapping"
  | .charactersNotMapping => "ai.characters must be a mapping of id to character"
  | .unclosedFence => s!"Unclosed ```{block} block"
  | .blockProblem p => s!"YAML parsing failed in {block} block: {p.message}"
  | .blockCharacter c place =>
    s!"YAML parsing failed in {block} block: " ++ Yaml.unreadableMessage c place
  | .blockNotMapping => s!"{block} block must contain a YAML mapping"
  | .noPrompt => s!"{block} block requires a prompt"
  | .badAudioKind found =>
    s!"{block} block requires type: sfx or background_music (got {found})"
  | .unknownFence => s!"{block} block is not a known block type"
  | .unknownForm kind => s!"Unknown block kind '{kind}'"

/-- The words for a place; none if nothing is known of it. -/
def Place.text (p : Place) : Option String :=
  let parts := (p.scene.map fun s => s!"scene '{s}'").toList ++
    (p.node.map fun n => s!"node {n}").toList ++ (p.line.map fun n => s!"line {n}").toList
  if parts.isEmpty then none else some (", ".intercalate parts)

/-- The words of a fault. -/
def Fault.message (f : Fault) : String :=
  let words := f.cause.message (f.place.block.getD "")
  match f.place.text with
  | some place => s!"{words} ({place})"
  | none => words

/-- Why a script is not a story. -/
inductive Failure where
  | fault (f : Fault)
  /-- The problems of the story as a document. -/
  | problems (ps : List Schema.Problem)
  /-- A value in the script means nothing. -/
  | defect (d : Yaml.Defect)
  deriving Repr, DecidableEq

/-- A number fault as a failure. -/
def Failure.ofNumber (f : NumberFault) : Failure :=
  .defect (.number f)

/-- A fault of the front matter, the place of which is its name alone. -/
def Failure.metadata (cause : Cause) : Failure :=
  .fault { cause := cause, place := { block := some "frontmatter" } }

end Storyline.Script
