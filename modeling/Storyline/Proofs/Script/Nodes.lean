import Storyline.Proofs.Outcome
import Storyline.Script.Compile

/-!
# One more block in front

How the nodes of a row of blocks come from the nodes behind the first block. Narration becomes no
node but waits, a text takes what waits, and any other block becomes a node by itself, whatever
waits. What is said of all nodes is proved by induction along these steps.

## Main definitions

* `Block.narration?`: the sound that a block of narration names

## Main results

* `Block.cases_narration`: the three kinds of blocks
* `result_nodes_narration`, `result_nodes_text`, `result_nodes_other`: the step for each of them
* `result_scene`: the nodes of a scene
-/

namespace Storyline.Script

/-- The sound that a block of narration names. -/
def Block.narration? (b : Block) : Option String :=
  match b.form with
  | .narration url => some url
  | _ => none

/-- A block is narration, a text, or neither. -/
theorem Block.cases_narration (b : Block) :
    (∃ url, b.form = .narration url ∧ b.narration? = some url) ∨
      b.narration? = none ∧
        ((∃ content, b.form = .text content) ∨ ∀ content, b.form ≠ .text content) := by
  obtain ⟨line, form⟩ := b
  cases form with
  | narration url => exact .inl ⟨url, rfl, rfl⟩
  | text content => exact .inr ⟨rfl, .inl ⟨content, rfl⟩⟩
  | _ => exact .inr ⟨rfl, .inr nofun⟩

theorem result_warnDropped (id : String) (narration : Option String) (line : Nat) :
    (warnDropped id narration line).result = .ok () := by
  cases narration <;> rfl

section

variable {id : String} {index : Nat} {narration : Option String} {b : Block} {bs : List Block}

theorem result_nodes_nil : (nodes id index narration []).result = .ok [] := by
  cases narration <;> rfl

theorem result_nodes_narration {url : String} (hb : b.form = .narration url) :
    (nodes id index narration (b :: bs)).result = (nodes id index (some url) bs).result := by
  rw [nodes, hb]

theorem result_nodes_text {content : String} (hb : b.form = .text content) :
    (nodes id index narration (b :: bs)).result =
      (nodes id (index + 1) none bs).result.map (.text content narration :: ·) := by
  rw [nodes, hb]
  dsimp only
  rw [Logged.result_bind]
  cases (nodes id (index + 1) none bs).result <;> rfl

/-- A block that is neither narration nor a text becomes a node by itself. -/
theorem result_nodes_other (hb : b.narration? = none) (htext : ∀ content, b.form ≠ .text content) :
    (nodes id index narration (b :: bs)).result =
      blockNode { scene := id, node := index, line := b.line } b >>= fun n =>
        (nodes id (index + 1) none bs).result.map (n :: ·) := by
  rw [nodes]
  split
  · next url hform =>
    rw [Block.narration?, hform] at hb
    cases hb
  · next content hform => exact absurd hform (htext content)
  · rw [Logged.result_bind, result_warnDropped]
    show (Logged.lift _ >>= _).result = _
    rw [Logged.result_bind, Logged.result_lift]
    congr 1
    funext n
    rw [Logged.result_bind]
    cases (nodes id (index + 1) none bs).result <;> rfl

end

theorem result_scene (d : Draft) :
    (scene d).result = (nodes d.id 0 none d.blocks).result.map (Scene.mk d.id) := by
  rw [scene, Logged.result_bind]
  cases (nodes d.id 0 none d.blocks).result <;> rfl

end Storyline.Script
