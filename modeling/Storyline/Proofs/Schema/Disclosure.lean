import Mathlib.Data.List.Forall2
import Storyline.Schema.Document

/-!
# What a reader's device is not told

The document of a playable story says nothing of what only the authors need: two stories that differ
in nothing else give one document. The comparison goes part by part, since characters and the kinds
of generated media each leave out something of their own.

## Main definitions

* `Generated.Alike`, `Character.Alike`: media and characters that differ in what they are made from
* `Game.Alike`: stories that differ in what only their authors need

## Main results

* `Generated.Alike.playable_eq`, `Character.Alike.playable_eq`: one playable form for both
* `Mapping.Pointwise.map_eq`: mappings that agree name by name
* `document_of_alike`: one document for both
-/

namespace Storyline

/-! ## Stories that differ in what only their authors need -/

/-- Two mappings with the same names in the same order whose values are related. -/
def Mapping.Pointwise {α : Type} (R : α → α → Prop) (m n : Mapping α) : Prop :=
  List.Forall₂ (fun p q => p.1 = q.1 ∧ R p.2 q.2) m.toList n.toList

/-- Generated media that differ at most in the prompt, in the characters that a picture shows and in
what is said of the variables of a minigame. -/
inductive Generated.Alike : Generated → Generated → Prop where
  | image (p q : String) (character : Option String) (cs ds : Option (List String))
      (url : Option String) : Alike (.image p character cs url) (.image q character ds url)
  | audio (kind : AudioKind) (p q : String) (url : Option String) :
      Alike (.audio kind p url) (.audio kind q url)
  | video (p q : String) (url : Option String) : Alike (.video p url) (.video q url)
  | minigame (p q : String) {notes others : Option (Mapping String)}
      (hnames : notes.map Mapping.keys = others.map Mapping.keys) (url : Option String) :
      Alike (.minigame p notes url) (.minigame q others url)

/-- Nodes that are equal but for generated media that are alike. -/
inductive Node.Alike : Node Generated → Node Generated → Prop where
  | same (n : Node Generated) : Alike n n
  | generated {m n : Generated} (h : m.Alike n) : Alike (.generated m) (.generated n)

/-- Scenes with one name whose nodes are alike, one by one. -/
structure Scene.Alike (s t : Scene Generated) : Prop where
  id : s.id = t.id
  nodes : List.Forall₂ Node.Alike s.nodes t.nodes

/-- Characters that differ at most in the description, the prompt of the picture and the voice. -/
structure Character.Alike (c d : Character) : Prop where
  name : c.name = d.name
  imageUrl : c.imageUrl = d.imageUrl

/-- Stories that differ at most in what only their authors need: the prompt and the shape of the
cover, whether they are published, the style of generated media, and what makes their characters and
generated media. -/
structure Game.Alike (g h : Game) : Prop where
  title : g.title = h.title
  description : g.description = h.description
  background : g.background = h.background
  coverImage : g.coverImage = h.coverImage
  tags : g.tags = h.tags
  slug : g.slug = h.slug
  initialState : g.initialState = h.initialState
  characters : Option.Rel (Mapping.Pointwise Character.Alike) g.making.characters
    h.making.characters
  scenes : Mapping.Pointwise Scene.Alike g.scenes h.scenes
  start : g.start = h.start

/-! ## Part by part -/

section

variable {α β : Type} {R : α → α → Prop} {f : α → β}

theorem map_eq_of_forall₂ {as bs : List α} (h : List.Forall₂ R as bs)
    (hf : ∀ {a b}, R a b → f a = f b) : as.map f = bs.map f := by
  induction h with
  | nil => rfl
  | cons hab _ ih => rw [List.map_cons, List.map_cons, hf hab, ih]

namespace Mapping.Pointwise

variable {m n : Mapping α}

/-- A function that does not tell related values apart does not tell the mappings apart. -/
theorem map_eq (h : m.Pointwise R n) (hf : ∀ {a b}, R a b → f a = f b) : m.map f = n.map f := by
  refine ext_toList (map_eq_of_forall₂ h ?_)
  rintro ⟨j, a⟩ ⟨k, b⟩ ⟨hname, hab⟩
  exact Prod.ext hname (hf hab)

theorem keys_eq (h : m.Pointwise R n) : m.keys = n.keys :=
  map_eq_of_forall₂ h And.left

end Mapping.Pointwise

theorem Mapping.isEmpty_keys (m : Mapping α) : m.keys.isEmpty = m.isEmpty :=
  List.isEmpty_map

/-- A mapping that is there and not empty is known by its names. -/
theorem map_keys_nonEmpty? (o : Option (Mapping α)) :
    (nonEmpty? o).map Mapping.keys = (o.map Mapping.keys).filter fun names => !names.isEmpty := by
  cases o with
  | none => rfl
  | some m =>
    rw [nonEmpty?, Option.map_some, Option.filter_some, Option.filter_some, Mapping.isEmpty_keys]
    cases m.isEmpty <;> rfl

theorem map_nonEmpty?_eq {o p : Option (Mapping α)} (h : Option.Rel (Mapping.Pointwise R) o p)
    (hf : ∀ {a b}, R a b → f a = f b) :
    (nonEmpty? o).map (Mapping.map f) = (nonEmpty? p).map (Mapping.map f) := by
  cases h with
  | none => rfl
  | @some m n hmn =>
    have hempty : m.isEmpty = n.isEmpty := by
      rw [← Mapping.isEmpty_keys, hmn.keys_eq, Mapping.isEmpty_keys]
    rw [nonEmpty?, nonEmpty?, Option.filter_some, Option.filter_some, hempty]
    -- An empty mapping is as good as none, and both are empty or neither is.
    cases n.isEmpty with
    | false => exact congrArg some (hmn.map_eq hf)
    | true => rfl

end

/-- Media that are alike have one playable form. -/
theorem Generated.Alike.playable_eq {m n : Generated} (h : m.Alike n) :
    m.playable = n.playable := by
  cases h with
  | image => rfl
  | audio => rfl
  | video => rfl
  | minigame p q hnames url =>
    rw [Generated.playable, Generated.playable, map_keys_nonEmpty?, map_keys_nonEmpty?, hnames]

theorem Node.Alike.map_eq {n o : Node Generated} (h : n.Alike o) :
    n.map Generated.playable = o.map Generated.playable := by
  cases h with
  | same => rfl
  | generated h => exact congrArg Node.generated h.playable_eq

theorem Scene.Alike.map_eq {s t : Scene Generated} (h : s.Alike t) :
    s.map Generated.playable = t.map Generated.playable := by
  rw [Scene.map, Scene.map, h.id, map_eq_of_forall₂ h.nodes Node.Alike.map_eq]

/-- Characters that are alike have one playable form. -/
theorem Character.Alike.playable_eq {c d : Character} (h : c.Alike d) :
    c.playable = d.playable := by
  rw [Character.playable, Character.playable, h.name, h.imageUrl]

/-- Stories that are alike have one playable form. -/
theorem Game.Alike.playable_eq {g h : Game} (hgh : g.Alike h) : g.playable = h.playable := by
  rw [Game.playable, Game.playable, hgh.title, hgh.description, hgh.background, hgh.coverImage,
    hgh.tags, hgh.slug, hgh.initialState, hgh.start,
    map_nonEmpty?_eq hgh.characters Character.Alike.playable_eq,
    hgh.scenes.map_eq Scene.Alike.map_eq]

/-! ## The document -/

/-- **A reader's device is not told what only the authors need.** Stories that differ in nothing
else are sent as one document. -/
theorem document_of_alike {g h : Game} (hgh : g.Alike h) :
    Schema.writePlayableGame g.playable = Schema.writePlayableGame h.playable := by
  rw [hgh.playable_eq]

/-- A story with a character, a prompt for its cover, and a scene with every kind of generated
media. -/
def draftedStory : Game :=
  { title := "Gates"
    coverPrompt := some "a gate"
    making :=
      { style := some (Mapping.ofList [("images", "ink")])
        characters := some (Mapping.ofList
        [("ann", { name := "Ann", description := some "tall" })]) }
    scenes := Mapping.ofList [("start", { id := "start", nodes :=
      [.text "Hello" none, .generated (.image "gate" (some "ann") (some ["ann"]) none),
        .generated (.audio .music "drums" none), .generated (.video "gate opens" (some "v")),
        .generated (.minigame "pick" (some (Mapping.ofList [("won", "whether")])) none)] })] }

/-- The same story as its authors left it. -/
def revisedStory : Game :=
  { title := "Gates"
    coverAspectRatio := some "16:9"
    published := true
    making :=
      { characters := some (Mapping.ofList [("ann", { name := "Ann", voiceName := some "alto" })]) }
    scenes := Mapping.ofList [("start", { id := "start", nodes :=
      [.text "Hello" none, .generated (.image "old gate" (some "ann") none none),
        .generated (.audio .music "flutes" none), .generated (.video "gate falls" (some "v")),
        .generated (.minigame "guess" (some (Mapping.ofList [("won", "or lost")])) none)] })] }

/-- A draft and its revision are sent as one document. -/
theorem document_of_revisedStory : draftedStory.Alike revisedStory ∧
    Schema.writePlayableGame draftedStory.playable =
      Schema.writePlayableGame revisedStory.playable := by
  have halike : draftedStory.Alike revisedStory := by
    refine ⟨rfl, rfl, rfl, rfl, rfl, rfl, rfl, .some ?_, ?_, rfl⟩
    · exact .cons ⟨rfl, rfl, rfl⟩ .nil
    · have hnames : (some (Mapping.ofList [("won", "whether")])).map Mapping.keys =
          (some (Mapping.ofList [("won", "or lost")])).map Mapping.keys := rfl
      refine .cons ⟨rfl, rfl, ?_⟩ .nil
      exact .cons (.same _) (.cons (.generated (.image ..)) (.cons (.generated (.audio ..))
        (.cons (.generated (.video ..)) (.cons (.generated (.minigame _ _ hnames _)) .nil))))
  exact ⟨halike, document_of_alike halike⟩

end Storyline
