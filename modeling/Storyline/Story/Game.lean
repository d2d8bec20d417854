import Storyline.Story.Node
import Storyline.Story.Variable

/-!
# Stories

A story as its author writes it, and in the playable form that a reader's device receives: without
prompts, styles and anything else that belongs to the making of it.

## Main definitions

* `Scene`, `Character`, `Game`: an authored story
* `PlayableCharacter`, `PlayableGame`: a playable story
* `Game.playable`: the playable form of a story
* `Stage`: what playing a story reads of it, in either form
-/

namespace Storyline

/-- A scene: its name and its nodes in order. -/
structure Scene (G : Type) where
  id : String
  nodes : List (Node G)
  deriving Repr, DecidableEq

/-- A scene with its generated media in another form. -/
def Scene.map {G H : Type} (f : G → H) (s : Scene G) : Scene H :=
  { id := s.id, nodes := s.nodes.map (Node.map f) }

/-- The choices of a scene, in order. -/
def Scene.choices {G : Type} (s : Scene G) : List Choice :=
  s.nodes.filterMap Node.choice?

/-- A character with what its pictures and its voice are made from. -/
structure Character where
  name : String
  description : Option String := none
  imagePrompt : Option String := none
  imageUrl : Option String := none
  voiceName : Option String := none
  deriving Repr, DecidableEq

/-- What generated media are made from. -/
structure Making where
  style : Option (Mapping String) := none
  characters : Option (Mapping Character) := none
  deriving Repr, DecidableEq

/-- A story as its author writes it. -/
structure Game where
  title : String
  description : Option String := none
  background : Option String := none
  coverImage : Option String := none
  coverPrompt : Option String := none
  coverAspectRatio : Option String := none
  tags : List String := []
  published : Bool := false
  slug : Option String := none
  initialState : InitialState := Mapping.empty
  making : Making := {}
  scenes : Mapping (Scene Generated) := Mapping.empty
  start : String := "start"
  deriving BEq

/-- A character as a reader's screen receives it. -/
structure PlayableCharacter where
  name : String
  imageUrl : Option String := none
  deriving Repr, DecidableEq

/-- A story as a reader's device receives it. -/
structure PlayableGame where
  slug : Option String := none
  title : String
  description : Option String := none
  background : Option String := none
  coverImage : Option String := none
  tags : List String := []
  initialState : InitialState := Mapping.empty
  characters : Option (Mapping PlayableCharacter) := none
  scenes : Mapping (Scene Playable) := Mapping.empty
  start : String := "start"
  deriving BEq

/-- A mapping that is there and not empty. -/
def nonEmpty? {α : Type} (m : Option (Mapping α)) : Option (Mapping α) :=
  m.filter fun m => !m.isEmpty

/-- Generated media without what generates them. -/
def Generated.playable : Generated → Playable
  | .image _ character _ url => .image url character
  | .audio kind _ url => .audio kind url
  | .video _ url => .video url
  | .minigame _ notes url => .minigame url ((nonEmpty? notes).map Mapping.keys)

/-- A character without what its pictures and its voice are made from. -/
def Character.playable (c : Character) : PlayableCharacter :=
  { name := c.name, imageUrl := c.imageUrl }

/-- The playable form of a story. -/
def Game.playable (g : Game) : PlayableGame :=
  { slug := g.slug
    title := g.title
    description := g.description
    background := g.background
    coverImage := g.coverImage
    tags := g.tags
    initialState := g.initialState
    characters := (nonEmpty? g.making.characters).map (Mapping.map Character.playable)
    scenes := g.scenes.map (Scene.map Generated.playable)
    start := g.start }

/-- What playing a story reads of it. -/
structure Stage (G : Type) where
  scenes : Mapping (Scene G)
  start : String
  initialState : InitialState
  /-- The display name of a character. -/
  displayName : String → Option String

/-- What playing an authored story reads of it. -/
def Game.stage (g : Game) : Stage Generated :=
  { scenes := g.scenes
    start := g.start
    initialState := g.initialState
    displayName := fun id => (g.making.characters.bind (·.get? id)).map (·.name) }

/-- What playing a playable story reads of it. -/
def PlayableGame.stage (g : PlayableGame) : Stage Playable :=
  { scenes := g.scenes
    start := g.start
    initialState := g.initialState
    displayName := fun id => (g.characters.bind (·.get? id)).map (·.name) }

end Storyline
