import Storyline.Proofs.Script.Canonical.Media
import Storyline.Proofs.Script.Nodes

/-!
# Narration

Narration is a comment that names a sound; it becomes no node. It waits for the block right behind
it and belongs to that block if it is a text; a later comment takes its place, and any other block
lets it go. So every block but narration becomes one node, of the form that the block has, and what
a text says besides its content depends on the block right before it alone.

Nothing else depends on narration, not even the place at which a fault is reported: nodes are
counted without it. A scene whose narration is left out is the same scene with silent texts, or
fails in the same way.

## Main definitions

* `shown`: the blocks that become nodes, each with the block right before it
* `Becomes`, `NodeOf`: which node a form may become, and the node of a block behind another
* `Node.silent`, `Scene.silent`, `Draft.silent`: nodes, scenes and drafts without narration

## Main results

* `gives_nodeOf`: the nodes of blocks
* `result_nodes_silent`, `result_scene_silent`: the same without narration
* `scene_nodes`: every block but narration becomes one node, and narration belongs to the text right
  behind it
-/

namespace Storyline

/-! ## Silence -/

section

variable {G : Type}

/-- A node without the narration of a text. -/
def Node.silent : Node G → Node G
  | .text content _ => .text content none
  | n => n

theorem Node.silent_of_content? {n : Node G} (h : n.content? = none) : n.silent = n := by
  cases n with
  | text content narration => cases h
  | _ => rfl

/-- A scene without the narration of its texts. -/
def Scene.silent (s : Scene G) : Scene G :=
  { s with nodes := s.nodes.map Node.silent }

end

namespace Script

/-- A draft without its narration. -/
def Draft.silent (d : Draft) : Draft :=
  { d with blocks := d.blocks.filter fun b => b.narration?.isNone }

/-- The blocks that become nodes, each with the block right before it, which for the first of them
may be `before`. -/
def shown (before : Option Block) (bs : List Block) : List (Option Block × Block) :=
  ((before :: bs.map some).zip bs).filter fun p => p.2.narration?.isNone

/-! ## The nodes of blocks -/

/-- Which node a form may become: the media of a fence are those that its name says. -/
inductive Becomes : Form → Node Generated → Prop
  | text (content : String) (narration : Option String) :
      Becomes (.text content) (.text content narration)
  | choice (text target : String) (clauses : Mapping String) (c : Choice)
      (htext : c.text = Text.trimmed text) (htarget : c.target = target) :
      Becomes (.choice text target clauses) (.choice c)
  | image (url alt : String) (shown : Option String) : Becomes (.image url alt) (.image url shown)
  | audio (url : String) : Becomes (.audio url) (.audio url)
  | video (url : String) : Becomes (.video url) (.video url)
  | generated (media : Generated) (data : String) :
      Becomes (.fence (fenceName media) data) (.generated media)

theorem Becomes.content?_eq_none {f : Form} {n : Node Generated} (h : Becomes f n)
    (htext : ∀ content, f ≠ .text content) : n.content? = none := by
  cases h with
  | text content narration => exact absurd rfl (htext content)
  | _ => rfl

/-- The node of a block: it has the form of the block, and if it is a text, its narration is the
sound that the block right before names. -/
structure NodeOf (before : Option Block) (b : Block) (n : Node Generated) : Prop where
  becomes : Becomes b.form n
  narration : ∀ content narration, n = .text content narration →
    narration = before.bind Block.narration?

section

variable {before : Option Block} {b : Block} {bs : List Block}

theorem gives_becomes (place : Place) (b : Block) : (blockNode place b).Gives (Becomes b.form) := by
  unfold blockNode
  split
  · next hform => exact hform ▸ Except.gives_ok (.text _ _)
  · next hform => exact hform ▸ Except.gives_ok (.choice _ _ _ _ rfl rfl)
  · next hform => exact hform ▸ Except.gives_ok (.image _ _ _)
  · next hform => exact hform ▸ Except.gives_ok (.audio _)
  · next hform => exact hform ▸ Except.gives_ok (.video _)
  · next name content hform =>
    rw [hform]
    refine Except.gives_bind fun data => ?_
    refine (gives_fenceName name place data).bind fun media hname => ?_
    subst hname
    exact Except.gives_ok (.generated media content)
  · exact Except.gives_error _
  · exact Except.gives_error _

theorem shown_narration {url : String} (hb : b.narration? = some url) :
    shown before (b :: bs) = shown (some b) bs := by
  rw [shown, List.map_cons, List.zip_cons_cons, List.filter_cons_of_neg (by simp [hb]), shown]

theorem shown_other (hb : b.narration? = none) :
    shown before (b :: bs) = (before, b) :: shown (some b) bs := by
  rw [shown, List.map_cons, List.zip_cons_cons, List.filter_cons_of_pos (by simp [hb]), shown]

/-- The nodes of blocks. What waits for a text is at all times what the block right before names. -/
theorem gives_nodeOf (id : String) (index : Nat) (before : Option Block) (bs : List Block) :
    (nodes id index (before.bind Block.narration?) bs).result.Gives
      (List.Forall₂ (fun p n => NodeOf p.1 p.2 n) (shown before bs)) := by
  induction bs generalizing index before with
  | nil =>
    rw [result_nodes_nil]
    exact Except.gives_ok .nil
  | cons b bs ih =>
    have hrest := ih (index + 1) (some b)
    rcases b.cases_narration with ⟨url, hform, hb⟩ | ⟨hb, ⟨content, hform⟩ | htext⟩
    -- What has waited so far is lost, and this block is now the one right before.
    · have hwaits := ih index (some b)
      rw [Option.bind_some, hb] at hwaits
      rwa [result_nodes_narration hform, shown_narration hb]
    · rw [Option.bind_some, hb] at hrest
      rw [result_nodes_text hform, shown_other hb]
      refine hrest.map fun ns hns => .cons ⟨hform ▸ .text _ _, ?_⟩ hns
      rintro _ _ ⟨⟩
      rfl
    -- Behind any block but narration nothing waits.
    · rw [Option.bind_some, hb] at hrest
      rw [result_nodes_other hb htext, shown_other hb]
      refine (gives_becomes _ b).bind fun n hn => hrest.map fun ns hns => .cons ⟨hn, ?_⟩ hns
      rintro content narration rfl
      cases hn.content?_eq_none htext

/-! ## Without narration -/

/-- Whatever waits for a text, the nodes are those of the other blocks, texts aside. -/
theorem result_nodes_silent (id : String) (index : Nat) (narration : Option String)
    (bs : List Block) :
    (nodes id index none (bs.filter fun b => b.narration?.isNone)).result =
      (nodes id index narration bs).result.map (List.map Node.silent) := by
  induction bs generalizing index narration with
  | nil =>
    rw [List.filter_nil, result_nodes_nil, result_nodes_nil]
    rfl
  | cons b bs ih =>
    have hrest := ih (index + 1) none
    rcases b.cases_narration with ⟨url, hform, hb⟩ | ⟨hb, hother⟩
    · rw [List.filter_cons_of_neg (by simp [hb]), result_nodes_narration hform, ih _ (some url)]
    · rw [List.filter_cons_of_pos (by simp [hb])]
      rcases hother with ⟨content, hform⟩ | htext
      · rw [result_nodes_text hform, result_nodes_text hform, hrest]
        cases (nodes id (index + 1) none bs).result <;> rfl
      -- The block has the same number with and without narration, so it fails in the same way.
      · rw [result_nodes_other hb htext, result_nodes_other hb htext, hrest]
        cases hnode : blockNode { scene := id, node := index, line := b.line } b with
        | error e => rfl
        | ok n =>
          have hn := (gives_becomes _ b n hnode).content?_eq_none htext
          cases (nodes id (index + 1) none bs).result with
          | error e => rfl
          | ok ns =>
            show Except.ok (n :: ns.map Node.silent) = Except.ok (n.silent :: ns.map Node.silent)
            rw [Node.silent_of_content? hn]

end

/-- A scene whose narration is left out is the same scene with silent texts, or fails in the same
way. -/
theorem result_scene_silent (d : Draft) :
    (scene d.silent).result = (scene d).result.map Scene.silent := by
  rw [result_scene, result_scene, Draft.silent]
  dsimp only
  rw [result_nodes_silent d.id 0 none d.blocks]
  cases (nodes d.id 0 none d.blocks).result <;> rfl

/-- **Every block but narration becomes one node, and narration belongs to the text right behind
it.** The nodes are those of the other blocks in order, each of the form of its block; a text has
the sound that the block right before it names, if that is narration; and without narration the
scene is the same but for the sounds of its texts. -/
theorem scene_nodes {d : Draft} {s : Scene Generated} (h : (scene d).result = .ok s) :
    s.id = d.id ∧
      List.Forall₂ (fun p n => NodeOf p.1 p.2 n) (shown none d.blocks) s.nodes ∧
      (scene d.silent).result = .ok s.silent := by
  have hsilent : (scene d.silent).result = .ok s.silent := by
    rw [result_scene_silent, h]
    rfl
  rw [result_scene] at h
  obtain ⟨ns, hns, rfl⟩ := Except.map_eq_ok_iff.1 h
  exact ⟨rfl, gives_nodeOf d.id 0 none d.blocks ns hns, hsilent⟩

/-- A night in which one of four comments is heard: the first is replaced by the next, one stands in
front of a picture, and one at the end. -/
def night : Draft where
  id := "night"
  line := 3
  blocks :=
    [⟨4, .narration "owl.mp3"⟩, ⟨5, .narration "wind.mp3"⟩, ⟨6, .text "It is dark."⟩,
      ⟨8, .text "Nothing moves."⟩, ⟨9, .narration "step.mp3"⟩, ⟨10, .image "door.png" ""⟩,
      ⟨11, .text "A door."⟩, ⟨12, .choice "Knock " "house" Mapping.empty⟩,
      ⟨13, .narration "rain.mp3"⟩]

theorem scene_nodes_night :
    ∃ s, (scene night).result = .ok s ∧
      s.nodes = [.text "It is dark." (some "wind.mp3"), .text "Nothing moves." none,
        .image "door.png" none, .text "A door." none,
        .choice { text := "Knock", target := "house" }] ∧
      List.Forall₂ (fun p n => NodeOf p.1 p.2 n) (shown none night.blocks) s.nodes ∧
      (scene night.silent).result = .ok s.silent := by
  have hnight : (scene night).result = .ok ⟨"night",
      [.text "It is dark." (some "wind.mp3"), .text "Nothing moves." none,
        .image "door.png" none, .text "A door." none,
        .choice { text := "Knock", target := "house" }]⟩ := by cbv
  exact ⟨_, hnight, rfl, (scene_nodes hnight).2⟩

end Script

end Storyline
