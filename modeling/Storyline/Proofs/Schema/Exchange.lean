import Storyline.Proofs.Schema.Record

/-!
# Stories sent and received

A story that is written as a document and read again is the same story: every scalar is of its kind,
every mapping in its order, and what was not there is not there.

## Main results

* `takesBack_variableInfo`, `takesBack_initialValue`: variables
* `takesBack_node`, `takesBack_scene`: nodes, by their tags, and scenes
* `takesBack_game`, `takesBack_playableGame`: stories
* `read_written_stories`: both forms of a story are read back
-/

namespace Storyline.Schema

open Checked

/-! ## Scalars -/

theorem takesBack_string : TakesBack readString Value.str :=
  fun _ => rfl

theorem neverNull_string : NeverNull Value.str :=
  fun _ => Value.noConfusion

theorem takesBack_bool : TakesBack readBool Value.bool :=
  fun _ => rfl

theorem neverNull_bool : NeverNull Value.bool :=
  fun _ => Value.noConfusion

theorem takesBack_number : TakesBack readNumber writeNumber := by
  intro x
  cases x <;> rfl

theorem neverNull_number : NeverNull writeNumber := by
  intro x
  cases x <;> exact Value.noConfusion

/-- A scalar is read back as one of its own kind. -/
theorem readScalar?_ofScalar (s : Scalar) : readScalar? (.ofScalar s) = some s := by
  cases s <;> rfl

theorem takesBack_scalar : TakesBack readScalar Value.ofScalar := by
  intro s
  rw [readScalar, readScalar?_ofScalar]

theorem takesBack_display : TakesBack readDisplay fun d => .str d.name := by
  intro d
  cases d <;> rfl

theorem takesBack_audioKind : TakesBack readAudioKind fun k => .str k.name := by
  intro k
  cases k <;> rfl

theorem neverNull_display : NeverNull fun d : Display => .str d.name :=
  fun _ => Value.noConfusion

theorem neverNull_trigger : NeverNull writeTrigger :=
  fun _ => Value.noConfusion

/-- A string that may be missing is read back. -/
theorem possible_string {name : String} {fields : List (String × Option Value)}
    {o : Option String} (hdistinct : (fields.map Prod.fst).Nodup)
    (h : (name, writeString? o) ∈ fields) :
    possible name readString (entriesOf fields) = .ok o :=
  possible_eq takesBack_string neverNull_string hdistinct h

theorem neverNull_strings : NeverNull writeStrings :=
  fun _ => Value.noConfusion

theorem neverNull_mapping {α : Type} (write : α → Value) : NeverNull (Value.ofMapping write) :=
  fun _ => Value.noConfusion

theorem takesBack_strings : TakesBack (readList readString) writeStrings :=
  takesBack_string.list

/-! ## Variables -/

section

variable (rules : Rules)

theorem takesBack_trigger : TakesBack (readTrigger rules) writeTrigger := by
  rintro ⟨condition, scene⟩
  rw [writeTrigger, record_eq_writeFields]
  show Trigger.mk <$> _ <*> _ = _
  refine seq_eq_ok (map_eq_ok ?condition) ?scene
  case condition => exact required_eq takesBack_string (by simp) (by simp)
  case scene => exact required_eq takesBack_string (by simp) (by simp)

/-- A variable with what is said of it is read back. -/
theorem takesBack_variableInfo : TakesBack (readVariableInfo rules) writeVariableInfo := by
  rintro ⟨value, visible, display, max, label, icon, trigger⟩
  show VariableInfo.mk <$> _ <*> _ <*> _ <*> _ <*> _ <*> _ <*> _ = _
  refine seq_eq_ok (seq_eq_ok (seq_eq_ok (seq_eq_ok (seq_eq_ok (seq_eq_ok (map_eq_ok ?value)
    ?visible) ?display) ?max) ?label) ?icon) ?trigger
  case value => exact required_eq takesBack_scalar (by simp) (by simp)
  case visible => exact possible_eq takesBack_bool neverNull_bool (by simp) (by simp)
  case display => exact possible_eq takesBack_display neverNull_display (by simp) (by simp)
  case max => exact possible_eq takesBack_number neverNull_number (by simp) (by simp)
  case label => exact possible_string (by simp) (by simp)
  case icon => exact possible_string (by simp) (by simp)
  case trigger =>
    exact possible_eq (takesBack_trigger rules) neverNull_trigger (by simp) (by simp)

/-- What a variable starts with is read back: a scalar as a scalar, and a record as a record. -/
theorem takesBack_initialValue : TakesBack (readInitialValue rules) writeInitialValue := by
  intro v
  cases v with
  | plain s => rw [readInitialValue, writeInitialValue, readScalar?_ofScalar]
  | described i =>
    -- A scalar is tried first, but no record is one.
    have hscalar : readScalar? (writeVariableInfo i) = none := rfl
    rw [readInitialValue, writeInitialValue, hscalar, takesBack_variableInfo]

end

/-! ## Nodes -/

section

variable {G : Type} {readMedia : String → Fields → Option (Checked G)} {writeMedia : G → Value}

/-- The tag of a node stands first. -/
theorem find?_tag (tag : String) (fields : List (String × Option Value)) :
    Value.find? (entriesOf (("type", some (.str tag)) :: fields)) "type" = some (.str tag) := by
  rw [find?_entriesOf_cons, if_pos rfl]
  rfl

/-- A node of a kind that both forms of a story share, by its tag. -/
theorem readNode_of_shared {tag : String} {fields : List (String × Option Value)} {n : Node G}
    (h : readSharedNode tag (entriesOf (("type", some (.str tag)) :: fields)) = some (.ok n)) :
    readNode readMedia (writeFields (("type", some (.str tag)) :: fields)) = .ok n := by
  rw [writeFields_eq, readNode, find?_tag]
  dsimp only
  rw [h]
  rfl

/-- Generated media, by their tag. -/
theorem readNode_of_media {tag : String} {fields : List (String × Option Value)} {m : G}
    (hshared : readSharedNode (G := G) tag (entriesOf (("type", some (.str tag)) :: fields)) = none)
    (h : readMedia tag (entriesOf (("type", some (.str tag)) :: fields)) = some (.ok m)) :
    readNode readMedia (writeFields (("type", some (.str tag)) :: fields)) =
      .ok (.generated m) := by
  rw [writeFields_eq, readNode, find?_tag]
  dsimp only
  rw [hshared, h]
  rfl

/-- A choice is read back. -/
theorem readNode_choice (c : Choice) : readNode readMedia (writeChoice c) = .ok (.choice c) := by
  obtain ⟨text, target, condition, assignment, audio⟩ := c
  refine readNode_of_shared (congrArg some (map_eq_ok ?_))
  show Choice.mk <$> _ <*> _ <*> _ <*> _ <*> _ = _
  refine seq_eq_ok (seq_eq_ok (seq_eq_ok (seq_eq_ok (map_eq_ok ?text) ?target) ?condition)
    ?assignment) ?audio
  case text => exact required_eq takesBack_string (by simp) (by simp)
  case target => exact required_eq takesBack_string (by simp) (by simp)
  case condition => exact possible_string (by simp) (by simp)
  case assignment => exact possible_string (by simp) (by simp)
  case audio => exact possible_string (by simp) (by simp)

/-- A node is read back by its tag, if generated media are. -/
theorem takesBack_node (hmedia : ∀ m, readNode readMedia (writeMedia m) = .ok (.generated m)) :
    TakesBack (readNode readMedia) (writeNode writeMedia) := by
  intro n
  -- The tag, which is written first, picks the reader of the same constructor.
  cases n with
  | text content narration =>
    refine readNode_of_shared (congrArg some ?_)
    show Node.text <$> _ <*> _ = _
    refine seq_eq_ok (map_eq_ok ?content) ?narration
    case content => exact required_eq takesBack_string (by simp) (by simp)
    case narration => exact possible_string (by simp) (by simp)
  | image url alt =>
    refine readNode_of_shared (congrArg some ?_)
    show Node.image <$> _ <*> _ = _
    refine seq_eq_ok (map_eq_ok ?url) ?alt
    case url => exact required_eq takesBack_string (by simp) (by simp)
    case alt => exact possible_string (by simp) (by simp)
  | audio url =>
    refine readNode_of_shared (congrArg some (map_eq_ok ?_))
    exact required_eq takesBack_string (by simp) (by simp)
  | video url =>
    refine readNode_of_shared (congrArg some (map_eq_ok ?_))
    exact required_eq takesBack_string (by simp) (by simp)
  | choice c => exact readNode_choice c
  | generated m => exact hmedia m

end

/-- Generated media of an authored story are read back. -/
theorem readNode_generated (m : Generated) :
    readNode readGenerated (writeGenerated m) = .ok (.generated m) := by
  -- None of these tags is that of a node which both forms of a story share.
  cases m with
  | image prompt character characters url =>
    refine readNode_of_media rfl (congrArg some ?_)
    show Generated.image <$> _ <*> _ <*> _ <*> _ = _
    refine seq_eq_ok (seq_eq_ok (seq_eq_ok (map_eq_ok ?prompt) ?character) ?characters) ?url
    case prompt => exact required_eq takesBack_string (by simp) (by simp)
    case character => exact possible_string (by simp) (by simp)
    case characters => exact possible_eq takesBack_strings neverNull_strings (by simp) (by simp)
    case url => exact possible_string (by simp) (by simp)
  | audio kind prompt url =>
    refine readNode_of_media rfl (congrArg some ?_)
    show Generated.audio <$> _ <*> _ <*> _ = _
    refine seq_eq_ok (seq_eq_ok (map_eq_ok ?kind) ?prompt) ?url
    case kind => exact required_eq takesBack_audioKind (by simp) (by simp)
    case prompt => exact required_eq takesBack_string (by simp) (by simp)
    case url => exact possible_string (by simp) (by simp)
  | video prompt url =>
    refine readNode_of_media rfl (congrArg some ?_)
    show Generated.video <$> _ <*> _ = _
    refine seq_eq_ok (map_eq_ok ?prompt) ?url
    case prompt => exact required_eq takesBack_string (by simp) (by simp)
    case url => exact possible_string (by simp) (by simp)
  | minigame prompt notes url =>
    refine readNode_of_media rfl (congrArg some ?_)
    show Generated.minigame <$> _ <*> _ <*> _ = _
    refine seq_eq_ok (seq_eq_ok (map_eq_ok ?prompt) ?notes) ?url
    case prompt => exact required_eq takesBack_string (by simp) (by simp)
    case notes =>
      exact possible_eq takesBack_string.mapping (neverNull_mapping _) (by simp) (by simp)
    case url => exact possible_string (by simp) (by simp)

/-- Generated media of a playable story are read back. -/
theorem readNode_playable (m : Playable) :
    readNode readPlayable (writePlayable m) = .ok (.generated m) := by
  cases m with
  | image url alt =>
    refine readNode_of_media rfl (congrArg some ?_)
    show Playable.image <$> _ <*> _ = _
    refine seq_eq_ok (map_eq_ok ?url) ?alt
    case url => exact possible_string (by simp) (by simp)
    case alt => exact possible_string (by simp) (by simp)
  | audio kind url =>
    refine readNode_of_media rfl (congrArg some ?_)
    show Playable.audio <$> _ <*> _ = _
    refine seq_eq_ok (map_eq_ok ?kind) ?url
    case kind => exact required_eq takesBack_audioKind (by simp) (by simp)
    case url => exact possible_string (by simp) (by simp)
  | video url =>
    refine readNode_of_media rfl (congrArg some
      (map_eq_ok ?_))
    exact possible_string (by simp) (by simp)
  | minigame url uses =>
    refine readNode_of_media rfl (congrArg some ?_)
    show Playable.minigame <$> _ <*> _ = _
    refine seq_eq_ok (map_eq_ok ?url) ?uses
    case url => exact possible_string (by simp) (by simp)
    case uses => exact possible_eq takesBack_strings neverNull_strings (by simp) (by simp)

/-! ## Stories -/

section

variable (rules : Rules)

theorem takesBack_scene {G : Type} {readMedia : String → Fields → Option (Checked G)}
    {writeMedia : G → Value}
    (hmedia : ∀ m, readNode readMedia (writeMedia m) = .ok (.generated m)) :
    TakesBack (readScene rules readMedia) (writeScene writeMedia) := by
  rintro ⟨id, nodes⟩
  rw [writeScene, record_eq_writeFields]
  show Scene.mk <$> _ <*> _ = _
  refine seq_eq_ok (map_eq_ok ?id) ?nodes
  case id => exact required_eq takesBack_string (by simp) (by simp)
  case nodes => exact withDefault_eq (takesBack_node hmedia).list (by simp) (by simp)

theorem takesBack_character : TakesBack (readCharacter rules) writeCharacter := by
  rintro ⟨name, description, imagePrompt, imageUrl, voiceName⟩
  show Character.mk <$> _ <*> _ <*> _ <*> _ <*> _ = _
  refine seq_eq_ok (seq_eq_ok (seq_eq_ok (seq_eq_ok (map_eq_ok ?name) ?description) ?imagePrompt)
    ?imageUrl) ?voiceName
  case name => exact required_eq takesBack_string (by simp) (by simp)
  case description => exact possible_string (by simp) (by simp)
  case imagePrompt => exact possible_string (by simp) (by simp)
  case imageUrl => exact possible_string (by simp) (by simp)
  case voiceName => exact possible_string (by simp) (by simp)

theorem takesBack_playableCharacter :
    TakesBack (readPlayableCharacter rules) writePlayableCharacter := by
  rintro ⟨name, imageUrl⟩
  show PlayableCharacter.mk <$> _ <*> _ = _
  refine seq_eq_ok (map_eq_ok ?name) ?imageUrl
  case name => exact required_eq takesBack_string (by simp) (by simp)
  case imageUrl => exact possible_string (by simp) (by simp)

theorem takesBack_making : TakesBack (readMaking rules) writeMaking := by
  rintro ⟨style, characters⟩
  show Making.mk <$> _ <*> _ = _
  refine seq_eq_ok (map_eq_ok ?style) ?characters
  case style =>
    exact possible_eq takesBack_string.mapping (neverNull_mapping _) (by simp) (by simp)
  case characters =>
    exact possible_eq (takesBack_character rules).mapping (neverNull_mapping _) (by simp)
      (by simp)

/-- A story as its author writes it is read back. -/
theorem takesBack_game : TakesBack (readGame rules) writeGame := by
  rintro ⟨title, description, background, coverImage, coverPrompt, coverAspectRatio, tags,
    published, slug, initialState, making, scenes, start⟩
  show Game.mk <$> _ <*> _ <*> _ <*> _ <*> _ <*> _ <*> _ <*> _ <*> _ <*> _ <*> _ <*> _ <*> _ = _
  refine seq_eq_ok (seq_eq_ok (seq_eq_ok (seq_eq_ok (seq_eq_ok (seq_eq_ok (seq_eq_ok (seq_eq_ok
    (seq_eq_ok (seq_eq_ok (seq_eq_ok (seq_eq_ok (map_eq_ok ?title) ?description) ?background)
    ?coverImage) ?coverPrompt) ?coverAspectRatio) ?tags) ?published) ?slug) ?initialState) ?making)
    ?scenes) ?start
  case title => exact required_eq takesBack_string (by simp) (by simp)
  case description => exact possible_string (by simp) (by simp)
  case background =>
    -- A field with two names is missing only if it stands under neither.
    exact withDefault_optional_eq takesBack_string neverNull_string (by simp)
      (by simp [writeString?]) (by simp)
  case coverImage => exact possible_string (by simp) (by simp)
  case coverPrompt => exact possible_string (by simp) (by simp)
  case coverAspectRatio => exact possible_string (by simp) (by simp)
  case tags => exact withDefault_eq takesBack_strings (by simp) (by simp)
  case published => exact withDefault_eq takesBack_bool (by simp) (by simp)
  case slug => exact possible_string (by simp) (by simp)
  case initialState =>
    exact withDefault_eq (takesBack_initialValue rules).mapping (by simp) (by simp)
  case making => exact withDefault_eq (takesBack_making rules) (by simp) (by simp)
  case scenes =>
    exact withDefault_eq (takesBack_scene rules readNode_generated).mapping (by simp) (by simp)
  case start => exact withDefault_eq takesBack_string (by simp) (by simp)

/-- A story as a reader's device receives it is read back. -/
theorem takesBack_playableGame : TakesBack (readPlayableGame rules) writePlayableGame := by
  rintro ⟨slug, title, description, background, coverImage, tags, initialState, characters, scenes,
    start⟩
  show PlayableGame.mk <$> _ <*> _ <*> _ <*> _ <*> _ <*> _ <*> _ <*> _ <*> _ <*> _ = _
  refine seq_eq_ok (seq_eq_ok (seq_eq_ok (seq_eq_ok (seq_eq_ok (seq_eq_ok (seq_eq_ok (seq_eq_ok
    (seq_eq_ok (map_eq_ok ?slug) ?title) ?description) ?background) ?coverImage) ?tags)
    ?initialState) ?characters) ?scenes) ?start
  case slug => exact possible_string (by simp) (by simp)
  case title => exact required_eq takesBack_string (by simp) (by simp)
  case description => exact possible_string (by simp) (by simp)
  case background =>
    exact withDefault_optional_eq takesBack_string neverNull_string (by simp)
      (by simp [writeString?]) (by simp)
  case coverImage => exact possible_string (by simp) (by simp)
  case tags => exact withDefault_eq takesBack_strings (by simp) (by simp)
  case initialState =>
    exact withDefault_eq (takesBack_initialValue rules).mapping (by simp) (by simp)
  case characters =>
    exact possible_eq (takesBack_playableCharacter rules).mapping (neverNull_mapping _) (by simp)
      (by simp)
  case scenes =>
    exact withDefault_eq (takesBack_scene rules readNode_playable).mapping (by simp) (by simp)
  case start => exact withDefault_eq takesBack_string (by simp) (by simp)

end

/-- **A story that is sent is received as it was**, in either form. Equality is of the stories
whole, so a number stays an integer or a double, `true` stays apart from `1` and `"true"`, names
keep their order, and nothing that was missing or empty turns into the other. -/
theorem read_written_stories (rules : Rules) :
    (∀ g : PlayableGame, readPlayableGame rules (writePlayableGame g) = .ok g) ∧
      ∀ g : Game, readGame rules (writeGame g) = .ok g :=
  ⟨takesBack_playableGame rules, takesBack_game rules⟩

end Storyline.Schema
