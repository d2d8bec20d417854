import Storyline.Schema.Document
import Storyline.Script.Line
import Storyline.Yaml.Text

/-!
# Scripts from stories

The script of a story in its canonical form: front matter with the fields that hold something, and a
line or a fence for every node.

## Main definitions

* `metadataEntries`: the front matter of a story
* `fenceName`, `mediaFields`: the fence of generated media, and what stands in it
* `nodeLines`, `sceneLines`: the lines of nodes and scenes
* `write`: the script of a story
-/

namespace Storyline.Script

open Text

/-- The fields that hold something. -/
def heldFields (fields : List (String × Option Value)) : List (String × Value) :=
  fields.filterMap fun p => p.2.map fun v => (p.1, v)

/-! ## Front matter -/

/-- A text, unless it is missing or empty. -/
def nonEmptyText? (s : Option String) : Option Value :=
  (s.filter fun t => !t.isEmpty).map Value.str

/-- A record, unless it is empty. -/
def nonEmptyRecord? (fields : List (String × Option Value)) : Option Value :=
  let held := heldFields fields
  if held.isEmpty then none else some (Value.record held)

/-- The entries of front matter: the fields of a story that hold something. -/
def metadataEntries (g : Game) : List (String × Value) :=
  heldFields [("title", some (.str g.title)), ("description", nonEmptyText? g.description),
    ("backgroundStory", nonEmptyText? g.background), ("cover_image", nonEmptyText? g.coverImage),
    ("cover_prompt", nonEmptyText? g.coverPrompt),
    ("cover_aspect_ratio", nonEmptyText? g.coverAspectRatio),
    ("tags", if g.tags.isEmpty then none else some (Schema.writeStrings g.tags)),
    ("published", if g.published then some (.bool true) else none),
    ("slug", nonEmptyText? g.slug),
    ("state", (nonEmpty? (some g.initialState)).map (Value.ofMapping Schema.writeInitialValue)),
    ("ai", nonEmptyRecord?
      [("style", (nonEmpty? g.making.style).map (Value.ofMapping .str)),
        ("characters",
          (nonEmpty? g.making.characters).map (Value.ofMapping Schema.writeCharacter))])]

/-- Names and values as the entries of a YAML mapping. -/
def asEntries (fields : List (String × Value)) : List (Value × Value) :=
  fields.map fun p => (.str p.1, p.2)

/-- The front matter of a story, without the rules around it. -/
def writeMetadata (g : Game) : Except NumberFault (List Char) :=
  Yaml.renderBody [] (asEntries (metadataEntries g))

/-! ## Nodes -/

/-- A fence around fields.  The characters of a picture stand between brackets. -/
def fenceLines (fence : String) (fields : List (String × Value)) :
    Except NumberFault (List (List Char)) := do
  let body ← Yaml.renderBody ["characters"] (asEntries fields)
  return (fenceMark ++ fence.toList) :: lines body ++ [fenceMark]

/-- A clause after a choice. -/
def clauseText (name : String) (content : Option String) : String :=
  match content.filter fun c => !c.isEmpty with
  | some c => s!" ({name}: {c})"
  | none => ""

/-- The line of a choice. -/
def choiceLine (c : Choice) : String :=
  s!"* [{c.text}] -> {c.target}" ++ clauseText "if" c.condition ++ clauseText "set" c.assignment ++
    clauseText "audio" c.audio

/-- What a variable of a game within the story is written as. -/
def variableNote (p : String × String) : Value :=
  Value.record [(p.1, .str p.2)]

/-- The fence that generated media are written in. -/
def fenceName : Generated → String
  | .image .. => "image-gen"
  | .audio .. => "audio-gen"
  | .video .. => "video-gen"
  | .minigame .. => "minigame-gen"

/-- The fields of generated media. -/
def mediaFields : Generated → List (String × Value)
  | .image prompt character characters url =>
    heldFields [("prompt", some (.str prompt)), ("character", character.map .str),
      ("characters", (characters.filter fun cs => !cs.isEmpty).map Schema.writeStrings),
      ("url", url.map .str)]
  | .audio kind prompt url =>
    heldFields [("type", some (.str kind.name)), ("prompt", some (.str prompt)),
      ("url", url.map .str)]
  | .video prompt url =>
    heldFields [("prompt", some (.str prompt)), ("url", url.map .str)]
  | .minigame prompt notes url =>
    heldFields [("prompt", some (.str prompt)),
      ("variables", (nonEmpty? notes).map fun vs => .list (vs.toList.map variableNote)),
      ("url", url.map .str)]

/-- The lines of a node.  The text of a node may itself have several lines. -/
def nodeLines : Node Generated → Except NumberFault (List (List Char))
  | .text content narration =>
    let comment := (narration.filter fun u => !u.isEmpty).map fun u =>
      s!"<!-- audio: {u} -->".toList
    .ok (comment.toList ++ [content.toList])
  | .image url alt =>
    let shown := alt.getD ""
    .ok [s!"![{shown}]({url})".toList]
  | .audio url => .ok [s!"[audio]({url})".toList]
  | .video url => .ok [s!"[video]({url})".toList]
  | .choice c => .ok [(choiceLine c).toList]
  | .generated media => fenceLines (fenceName media) (mediaFields media)

/-! ## Scripts -/

/-- The lines of a scene. -/
def sceneLines (s : Scene Generated) : Except NumberFault (List (List Char)) := do
  return s!"# {s.id}".toList :: (← s.nodes.mapM nodeLines).flatten

/-- The script of a story. -/
def write (g : Game) : Except NumberFault String := do
  let metadata ← writeMetadata g
  let scenes ← g.scenes.values.mapM sceneLines
  let separator := ['\n', '\n'] ++ rule ++ ['\n', '\n']
  let body := List.intercalate separator (scenes.map unlines)
  let header := rule ++ '\n' :: metadata ++ '\n' :: rule
  return String.ofList (trim (header ++ ['\n', '\n'] ++ body))

end Storyline.Script
