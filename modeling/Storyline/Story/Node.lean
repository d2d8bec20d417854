import Storyline.Mapping

/-!
# Nodes of a scene

What a scene is made of: text, images, sounds and videos, choices, and media that are generated from
a prompt.  A node is the same in the authored and in the playable form of a story except for
generated media, which is the parameter of the type.

## Main definitions

* `Choice`: an option of the reader
* `Generated`, `Playable`: generated media with and without what generates it
* `Node`: a node of a scene
-/

namespace Storyline

/-- An option of the reader: where it leads, what must hold for it, and what it changes. -/
structure Choice where
  text : String
  target : String
  condition : Option String := none
  assignment : Option String := none
  audio : Option String := none
  deriving Repr, DecidableEq

/-- What generated sound is for. -/
inductive AudioKind where
  | effect
  | music
  deriving Repr, DecidableEq

/-- The name of a kind of generated sound. -/
def AudioKind.name : AudioKind → String
  | .effect => "sfx"
  | .music => "background_music"

/-- The kinds of generated sound. -/
def AudioKind.all : List AudioKind :=
  [.effect, .music]

/-- The kind of generated sound with a name. -/
def AudioKind.ofName? (s : String) : Option AudioKind :=
  AudioKind.all.find? fun k => k.name == s

/-- Media that are generated from a prompt. -/
inductive Generated where
  | image (prompt : String) (character : Option String) (characters : Option (List String))
      (url : Option String)
  | audio (kind : AudioKind) (prompt : String) (url : Option String)
  | video (prompt : String) (url : Option String)
  | minigame (prompt : String) (notes : Option (Mapping String)) (url : Option String)
  deriving Repr, DecidableEq

/-- Generated media as a reader's screen receives them. -/
inductive Playable where
  | image (url : Option String) (alt : Option String)
  | audio (kind : AudioKind) (url : Option String)
  | video (url : Option String)
  | minigame (url : Option String) (uses : Option (List String))
  deriving Repr, DecidableEq

/-- A node of a scene whose generated media have the form `G`. -/
inductive Node (G : Type) where
  | text (content : String) (narration : Option String)
  | image (url : String) (alt : Option String)
  | audio (url : String)
  | video (url : String)
  | choice (c : Choice)
  | generated (media : G)
  deriving Repr, DecidableEq

namespace Node

variable {G H : Type}

/-- A node with its generated media in another form. -/
def map (f : G → H) : Node G → Node H
  | .text content narration => .text content narration
  | .image url alt => .image url alt
  | .audio url => .audio url
  | .video url => .video url
  | .choice c => .choice c
  | .generated m => .generated (f m)

/-- The choice that a node is. -/
def choice? : Node G → Option Choice
  | .choice c => some c
  | _ => none

/-- The text that a node is. -/
def content? : Node G → Option String
  | .text content _ => some content
  | _ => none

@[simp] theorem choice?_map (f : G → H) (n : Node G) : (n.map f).choice? = n.choice? := by
  cases n <;> rfl

@[simp] theorem content?_map (f : G → H) (n : Node G) : (n.map f).content? = n.content? := by
  cases n <;> rfl

end Node

end Storyline
