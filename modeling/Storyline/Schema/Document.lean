import Storyline.Schema.Scalar
import Storyline.Story.Game

/-!
# Stories as documents

How stories are exchanged: as records with fixed names.  Fields that are not there or hold nothing
take their defaults, unknown fields are ignored, and some fields have a second name.  Writing leaves
out what is not there.

## Main definitions

* `readGame`, `readPlayableGame`: stories from documents
* `writeGame`, `writePlayableGame`: documents from stories
-/

namespace Storyline.Schema

/-- How a document is read: what it is called when a record is expected and something else found. -/
structure Rules where
  notRecord : ProblemKind := .notRecord

/-- The fields of a record. -/
abbrev Fields := List (Value × Value)

/-- The value of a field under the first of its names that is there, with that name. -/
def findField? (fields : Fields) : List String → Option (String × Value)
  | [] => none
  | name :: names =>
    match Value.find? fields name with
    | some v => some (name, v)
    | none => findField? fields names

/-- A field that must be there.  A missing field is reported under its first name. -/
def required {α : Type} (names : List String) (read : Value → Checked α) (fields : Fields) :
    Checked α :=
  match findField? fields names with
  | some (name, v) => (read v).under name
  | none => (Checked.problem .missing).under (names.headD "")

/-- A field with a default. -/
def withDefault {α : Type} (names : List String) (default : α) (read : Value → Checked α)
    (fields : Fields) : Checked α :=
  match findField? fields names with
  | some (name, v) => (read v).under name
  | none => .ok default

/-- A field that may be missing or hold nothing. -/
def possible {α : Type} (name : String) (read : Value → Checked α) (fields : Fields) :
    Checked (Option α) :=
  withDefault [name] none (optional read) fields

/-- A record. -/
def record {α : Type} (rules : Rules) (read : Fields → Checked α) : Value → Checked α
  | .map fields => read fields
  | _ => .problem rules.notRecord

/-! ## Reading -/

/-- A trigger. -/
def readTrigger (rules : Rules) : Value → Checked Trigger :=
  record rules fun fs =>
    Trigger.mk <$> required ["condition"] readString fs <*> required ["scene"] readString fs

/-- A way to show a variable. -/
def readDisplay : Value → Checked Display
  | .str "value" => .ok .value
  | .str "progress" => .ok .progress
  | .str "icon" => .ok .icon
  | _ => .problem .notChoice

/-- A variable with what is said of it. -/
def readVariableInfo (rules : Rules) : Value → Checked VariableInfo :=
  record rules fun fs =>
    VariableInfo.mk <$> required ["value"] readScalar fs <*> possible "visible" readBool fs
      <*> possible "display" readDisplay fs <*> possible "max" readNumber fs
      <*> possible "label" readString fs <*> possible "icon" readString fs
      <*> possible "trigger" (readTrigger rules) fs

/-- What a variable starts with: a scalar, or a record. -/
def readInitialValue (rules : Rules) (v : Value) : Checked InitialValue :=
  match readScalar? v with
  | some s => .ok (.plain s)
  | none =>
    match readVariableInfo rules v with
    | .ok i => .ok (.described i)
    -- Neither a scalar nor a record: the problems of every reading are told.
    | .bad ps => noneOf (scalarProblems v ++ [("VariableMeta", ps)])

/-- The variables of a story. -/
def readInitialState (rules : Rules) : Value → Checked InitialState :=
  readMapping (readInitialValue rules)

/-- The variables of a running story. -/
def readState : Value → Checked State :=
  readMapping readScalar

/-- A kind of generated sound. -/
def readAudioKind : Value → Checked AudioKind
  | .str s =>
    match AudioKind.ofName? s with
    | some k => .ok k
    | none => .problem .notChoice
  | _ => .problem .notChoice

/-- The nodes that both forms of a story share, by their tag. -/
def readSharedNode {G : Type} (tag : String) (fs : Fields) : Option (Checked (Node G)) :=
  match tag with
  | "text" => some <|
    Node.text <$> required ["content"] readString fs <*> possible "audio_url" readString fs
  | "static_image" => some <|
    Node.image <$> required ["url"] readString fs <*> possible "alt" readString fs
  | "static_audio" => some <| Node.audio <$> required ["url"] readString fs
  | "static_video" => some <| Node.video <$> required ["url"] readString fs
  | "choice" => some <| Node.choice <$>
    (Choice.mk <$> required ["text"] readString fs
      <*> required ["nextSceneId", "next_scene_id"] readString fs
      <*> possible "condition" readString fs <*> possible "set" readString fs
      <*> possible "audio_url" readString fs)
  | _ => none

/-- Generated media of an authored story, by their tag. -/
def readGenerated (tag : String) (fs : Fields) : Option (Checked Generated) :=
  match tag with
  | "ai_image" => some <|
    Generated.image <$> required ["prompt"] readString fs <*> possible "character" readString fs
      <*> possible "characters" (readList readString) fs <*> possible "url" readString fs
  | "ai_audio" => some <|
    Generated.audio <$> required ["audioType", "audio_type"] readAudioKind fs
      <*> required ["prompt"] readString fs <*> possible "url" readString fs
  | "ai_video" => some <|
    Generated.video <$> required ["prompt"] readString fs <*> possible "url" readString fs
  | "minigame" => some <|
    Generated.minigame <$> required ["prompt"] readString fs
      <*> possible "variables" (readMapping readString) fs <*> possible "url" readString fs
  | _ => none

/-- Generated media of a playable story, by their tag. -/
def readPlayable (tag : String) (fs : Fields) : Option (Checked Playable) :=
  match tag with
  | "ai_image" => some <|
    Playable.image <$> possible "url" readString fs <*> possible "alt" readString fs
  | "ai_audio" => some <|
    Playable.audio <$> required ["audioType", "audio_type"] readAudioKind fs
      <*> possible "url" readString fs
  | "ai_video" => some <| Playable.video <$> possible "url" readString fs
  | "minigame" => some <|
    Playable.minigame <$> possible "url" readString fs
      <*> possible "variables" (readList readString) fs
  | _ => none

/-- A node: a record whose field `type` tells which. -/
def readNode {G : Type} (readMedia : String → Fields → Option (Checked G)) :
    Value → Checked (Node G)
  | .map fs =>
    match Value.find? fs "type" with
    | none => .problem .missingTag
    | some (.str tag) =>
      match readSharedNode tag fs, readMedia tag fs with
      | some n, _ => n.under tag
      | none, some m => (Node.generated <$> m).under tag
      | none, none => .problem .unknownTag
    | some _ => .problem .unknownTag
  | _ => .problem .notRecordOrObject

/-- A scene. -/
def readScene {G : Type} (rules : Rules) (readMedia : String → Fields → Option (Checked G)) :
    Value → Checked (Scene G) :=
  record rules fun fs =>
    Scene.mk <$> required ["id"] readString fs
      <*> withDefault ["nodes"] [] (readList (readNode readMedia)) fs

/-- A character. -/
def readCharacter (rules : Rules) : Value → Checked Character :=
  record rules fun fs =>
    Character.mk <$> required ["name"] readString fs <*> possible "description" readString fs
      <*> possible "image_prompt" readString fs <*> possible "image_url" readString fs
      <*> possible "voice_name" readString fs

/-- What generated media are made from. -/
def readMaking (rules : Rules) : Value → Checked Making :=
  record rules fun fs =>
    Making.mk <$> possible "style" (readMapping readString) fs
      <*> possible "characters" (readMapping (readCharacter rules)) fs

/-- A story as its author writes it. -/
def readGame (rules : Rules) : Value → Checked Game :=
  record rules fun fs =>
    Game.mk <$> required ["title"] readString fs <*> possible "description" readString fs
      <*> withDefault ["backgroundStory", "background_story"] none (optional readString) fs
      <*> possible "cover_image" readString fs <*> possible "cover_prompt" readString fs
      <*> possible "cover_aspect_ratio" readString fs
      <*> withDefault ["tags"] [] (readList readString) fs
      <*> withDefault ["published"] false readBool fs
      <*> possible "slug" readString fs
      <*> withDefault ["initialState", "initial_state"] Mapping.empty (readInitialState rules) fs
      <*> withDefault ["ai"] {} (readMaking rules) fs
      <*> withDefault ["scenes"] Mapping.empty (readMapping (readScene rules readGenerated)) fs
      <*> withDefault ["startSceneId", "start_scene_id"] "start" readString fs

/-- A character as a reader's screen receives it. -/
def readPlayableCharacter (rules : Rules) : Value → Checked PlayableCharacter :=
  record rules fun fs =>
    PlayableCharacter.mk <$> required ["name"] readString fs <*> possible "image_url" readString fs

/-- A story as a reader's device receives it. -/
def readPlayableGame (rules : Rules) : Value → Checked PlayableGame :=
  record rules fun fs =>
    PlayableGame.mk <$> possible "slug" readString fs <*> required ["title"] readString fs
      <*> possible "description" readString fs
      <*> withDefault ["backgroundStory", "background_story"] none (optional readString) fs
      <*> possible "cover_image" readString fs
      <*> withDefault ["tags"] [] (readList readString) fs
      <*> withDefault ["initialState", "initial_state"] Mapping.empty (readInitialState rules) fs
      <*> possible "characters" (readMapping (readPlayableCharacter rules)) fs
      <*> withDefault ["scenes"] Mapping.empty (readMapping (readScene rules readPlayable)) fs
      <*> withDefault ["startSceneId", "start_scene_id"] "start" readString fs

/-! ## Writing -/

/-- A record of the fields that hold something. -/
def writeFields (fields : List (String × Option Value)) : Value :=
  Value.record (fields.filterMap fun p => p.2.map fun v => (p.1, v))

/-- A string that may be missing. -/
def writeString? (s : Option String) : Option Value :=
  s.map Value.str

/-- A list of strings. -/
def writeStrings (ss : List String) : Value :=
  .list (ss.map Value.str)

/-- A number. -/
def writeNumber : Number → Value
  | .int n => .int n
  | .float x => .float x

/-- A trigger. -/
def writeTrigger (t : Trigger) : Value :=
  Value.record [("condition", .str t.condition), ("scene", .str t.scene)]

/-- A variable with what is said of it. -/
def writeVariableInfo (i : VariableInfo) : Value :=
  writeFields [("value", some (.ofScalar i.value)), ("visible", i.visible.map Value.bool),
    ("display", i.display.map fun d => .str d.name), ("max", i.max.map writeNumber),
    ("label", writeString? i.label), ("icon", writeString? i.icon),
    ("trigger", i.trigger.map writeTrigger)]

/-- What a variable starts with. -/
def writeInitialValue : InitialValue → Value
  | .plain s => .ofScalar s
  | .described i => writeVariableInfo i

/-- The variables of a running story. -/
def writeState (s : State) : Value :=
  Value.ofMapping Value.ofScalar s

/-- A choice. -/
def writeChoice (c : Choice) : Value :=
  writeFields [("type", some (.str "choice")), ("text", some (.str c.text)),
    ("nextSceneId", some (.str c.target)), ("condition", writeString? c.condition),
    ("set", writeString? c.assignment), ("audio_url", writeString? c.audio)]

/-- Generated media of an authored story. -/
def writeGenerated : Generated → Value
  | .image prompt character characters url =>
    writeFields [("type", some (.str "ai_image")), ("prompt", some (.str prompt)),
      ("character", writeString? character), ("characters", characters.map writeStrings),
      ("url", writeString? url)]
  | .audio kind prompt url =>
    writeFields [("type", some (.str "ai_audio")), ("audioType", some (.str kind.name)),
      ("prompt", some (.str prompt)), ("url", writeString? url)]
  | .video prompt url =>
    writeFields [("type", some (.str "ai_video")), ("prompt", some (.str prompt)),
      ("url", writeString? url)]
  | .minigame prompt notes url =>
    writeFields [("type", some (.str "minigame")), ("prompt", some (.str prompt)),
      ("variables", notes.map (Value.ofMapping Value.str)), ("url", writeString? url)]

/-- Generated media of a playable story. -/
def writePlayable : Playable → Value
  | .image url alt =>
    writeFields [("type", some (.str "ai_image")), ("url", writeString? url),
      ("alt", writeString? alt)]
  | .audio kind url =>
    writeFields [("type", some (.str "ai_audio")), ("audioType", some (.str kind.name)),
      ("url", writeString? url)]
  | .video url => writeFields [("type", some (.str "ai_video")), ("url", writeString? url)]
  | .minigame url uses =>
    writeFields [("type", some (.str "minigame")), ("url", writeString? url),
      ("variables", uses.map writeStrings)]

/-- A node. -/
def writeNode {G : Type} (writeMedia : G → Value) : Node G → Value
  | .text content narration =>
    writeFields [("type", some (.str "text")), ("content", some (.str content)),
      ("audio_url", writeString? narration)]
  | .image url alt =>
    writeFields [("type", some (.str "static_image")), ("url", some (.str url)),
      ("alt", writeString? alt)]
  | .audio url => writeFields [("type", some (.str "static_audio")), ("url", some (.str url))]
  | .video url => writeFields [("type", some (.str "static_video")), ("url", some (.str url))]
  | .choice c => writeChoice c
  | .generated m => writeMedia m

/-- A scene. -/
def writeScene {G : Type} (writeMedia : G → Value) (s : Scene G) : Value :=
  Value.record [("id", .str s.id), ("nodes", .list (s.nodes.map (writeNode writeMedia)))]

/-- A character. -/
def writeCharacter (c : Character) : Value :=
  writeFields [("name", some (.str c.name)), ("description", writeString? c.description),
    ("image_prompt", writeString? c.imagePrompt), ("image_url", writeString? c.imageUrl),
    ("voice_name", writeString? c.voiceName)]

/-- What generated media are made from. -/
def writeMaking (m : Making) : Value :=
  writeFields [("style", m.style.map (Value.ofMapping Value.str)),
    ("characters", m.characters.map (Value.ofMapping writeCharacter))]

/-- A story as its author writes it. -/
def writeGame (g : Game) : Value :=
  writeFields [("title", some (.str g.title)), ("description", writeString? g.description),
    ("backgroundStory", writeString? g.background), ("cover_image", writeString? g.coverImage),
    ("cover_prompt", writeString? g.coverPrompt),
    ("cover_aspect_ratio", writeString? g.coverAspectRatio), ("tags", some (writeStrings g.tags)),
    ("published", some (.bool g.published)), ("slug", writeString? g.slug),
    ("initialState", some (Value.ofMapping writeInitialValue g.initialState)),
    ("ai", some (writeMaking g.making)),
    ("scenes", some (Value.ofMapping (writeScene writeGenerated) g.scenes)),
    ("startSceneId", some (.str g.start))]

/-- A character as a reader's screen receives it. -/
def writePlayableCharacter (c : PlayableCharacter) : Value :=
  writeFields [("name", some (.str c.name)), ("image_url", writeString? c.imageUrl)]

/-- A story as a reader's device receives it. -/
def writePlayableGame (g : PlayableGame) : Value :=
  writeFields [("slug", writeString? g.slug), ("title", some (.str g.title)),
    ("description", writeString? g.description), ("backgroundStory", writeString? g.background),
    ("cover_image", writeString? g.coverImage), ("tags", some (writeStrings g.tags)),
    ("initialState", some (Value.ofMapping writeInitialValue g.initialState)),
    ("characters", g.characters.map (Value.ofMapping writePlayableCharacter)),
    ("scenes", some (Value.ofMapping (writeScene writePlayable) g.scenes)),
    ("startSceneId", some (.str g.start))]

end Storyline.Schema
