import Storyline.Proofs.Script.Canonical.Lines
import Storyline.Proofs.Script.Formless
import Storyline.Proofs.Script.Narration
import Storyline.Proofs.Script.Repeats

/-!
# The nodes that scripts give

What is known of the nodes of a parsed story beyond their normal form: the lines of a text had no
form where they stood, a sound that is named with a text has no blank in it, the line of a choice or
of static media is read as the same node, and of the texts in a scene only the last node may leave a
fence open.

## Main definitions

* `Node.Closes`: a node after which no fence is open
* `Node.Given`, `Scene.Given`: nodes and scenes as the blocks of a script give them

## Main results

* `gives_givenNodes`: the nodes of given blocks
* `given_of_compile`: the scenes of a story
-/

namespace Storyline

open Text

/-- Whether no fence is open after a node. -/
def Node.Closes : Node Generated → Prop
  | .text content _ => Script.Region.scene.after (lines content.toList) ≠ .fence
  | _ => True

instance : (n : Node Generated) → Decidable n.Closes
  | .text content _ =>
    inferInstanceAs (Decidable (Script.Region.scene.after (lines content.toList) ≠ .fence))
  | .image .. | .audio _ | .video _ | .choice _ | .generated _ => .isTrue trivial

/-- Whether a text can be the address of a sound: it is not empty and has no blank. -/
def IsAddress (url : String) : Prop :=
  url.toList ≠ [] ∧ ∀ c ∈ url.toList, isBlank c = false

/-- Whether a node is as the blocks of a script give it. -/
def Node.Given : Node Generated → Prop
  | .text content narration =>
    Script.Region.scene.Formless (lines content.toList) ∧ ∀ url ∈ narration, IsAddress url
  | .generated _ => True
  | n => ∃ w, Script.nodeLines n = .ok [w] ∧ Filled w ∧ Script.ReadsAs n w

/-- Nodes as the blocks of a script give them, of which only the last may leave a fence open. -/
structure GivenNodes (ns : List (Node Generated)) : Prop where
  given : ∀ n ∈ ns, n.Given
  chain : ns.IsChain fun m _ => m.Closes

/-- A scene as a script gives it. -/
structure Scene.Given (s : Scene Generated) : Prop where
  name : Script.IsName s.id
  normal : s.Normal
  nodes : GivenNodes s.nodes

/-! ## Nodes -/

theorem givenNodes_nil : GivenNodes [] :=
  ⟨List.forall_mem_nil _, .nil⟩

theorem GivenNodes.cons {n : Node Generated} {ns : List (Node Generated)} (h : GivenNodes ns)
    (hn : n.Given) (hcloses : ns ≠ [] → n.Closes) : GivenNodes (n :: ns) := by
  refine ⟨List.forall_mem_cons.2 ⟨hn, h.given⟩, List.isChain_cons.2 ⟨fun m hm => ?_, h.chain⟩⟩
  exact hcloses (List.ne_nil_of_mem (List.mem_of_head? hm))

theorem closes_of_content? {n : Node Generated} (h : n.content? = none) : n.Closes := by
  cases n with
  | text content narration => cases h
  | _ => trivial

namespace Script

open Except

/-- The line that is written for the node of a single line is filled. -/
theorem filled_written {l w : List Char} {f : Form} {leftover : String} {node : Node Generated}
    (hbreak : '\n' ∉ l) (htrim : trim l = l) (h : lineForm? l = some (f, leftover))
    (hsingle : f.isSingle = true) (hnode : ∀ place k, blockNode place ⟨k, f⟩ = .ok node)
    (hw : nodeLines node = .ok [w]) : Filled w := by
  have hnode := hnode {} 0
  -- For media the written line is the line itself.
  have hmedia (hl : nodeLines node = .ok [l]) : Filled w := by
    obtain ⟨c, -, r, rfl⟩ := exists_mark h hsingle
    obtain rfl := (List.cons.inj (Except.ok.inj (hl.symm.trans hw))).1
    exact ⟨List.cons_ne_nil c r, htrim⟩
  rcases lineForm?_cases h with hline | ⟨-, hline | hline | hline | hline⟩
  · obtain ⟨_, _, q, -, -, -, he⟩ := choice?_eq_some hline
    cases he
    obtain rfl := Except.ok.inj hnode
    obtain rfl := (List.cons.inj (Except.ok.inj hw)).1
    rw [Choice.toList_choiceLine]
    exact ⟨List.cons_ne_nil _ _, trim_lineIn (writable_of_choice? hbreak hline) (.refl _)⟩
  · obtain ⟨_, url, -, -, rfl⟩ := image?_eq_some hline
    refine hmedia ?_
    rw [← Except.ok.inj hnode, nodeLines_shown, ← eq_of_image? hline]
  · obtain ⟨_, url, -, -, rfl⟩ := audio?_eq_some hline
    refine hmedia ?_
    rw [← Except.ok.inj hnode, eq_of_audio? hline]
    rfl
  · obtain ⟨_, url, -, -, rfl⟩ := video?_eq_some hline
    refine hmedia ?_
    rw [← Except.ok.inj hnode, eq_of_video? hline]
    rfl
  · obtain ⟨_, _, _, -, -, -, -, -, rfl⟩ := narration?_eq_some hline
    cases hsingle

/-- A block on a single line becomes the node that its line is read as. -/
theorem gives_singleNode (place : Place) {b : Block} (hb : b.form.Given)
    (hsingle : b.form.isSingle = true) : (blockNode place b).Gives fun n =>
      ∃ w, nodeLines n = .ok [w] ∧ Filled w ∧ ReadsAs n w := by
  obtain ⟨line, form⟩ := b
  obtain ⟨l, leftover, htrim, hbreak, hform⟩ :
      ∃ l leftover, trim l = l ∧ '\n' ∉ l ∧ lineForm? l = some (form, leftover) := by
    cases form <;> first | exact hb | cases hsingle
  obtain ⟨node, w, hnode, hwritten, hreads⟩ := reads_single hbreak htrim hform hsingle
  rw [hnode place line]
  exact gives_ok ⟨w, hwritten, filled_written hbreak htrim hform hsingle hnode hwritten,
    hreads w (.inl hwritten)⟩

/-- The node of a given block that is no text. -/
theorem gives_givenNode (place : Place) {b : Block} (hb : b.form.Given)
    (htext : ∀ content, b.form ≠ .text content) :
    (blockNode place b).Gives fun n => n.Given ∧ n.Closes := by
  intro n hn
  have hbecomes := gives_becomes place b n hn
  refine ⟨?_, closes_of_content? (hbecomes.content?_eq_none htext)⟩
  have hsingle := gives_singleNode place hb
  generalize hform : b.form = form at hbecomes htext hsingle
  cases hbecomes with
  | text content narration => exact absurd rfl (htext content)
  | generated media data => trivial
  | _ => exact hsingle rfl _ hn

/-- The nodes of given blocks. -/
theorem gives_givenNodes (id : String) (index : Nat) {narration : Option String} {bs : List Block}
    (hnarration : ∀ url ∈ narration, IsAddress url) (h : GivenBlocks bs) :
    (nodes id index narration bs).result.Gives fun ns =>
      GivenNodes ns ∧ (ns ≠ [] → bs ≠ []) := by
  induction bs generalizing index narration with
  | nil =>
    rw [result_nodes_nil]
    exact gives_ok ⟨givenNodes_nil, fun h => absurd rfl h⟩
  | cons b bs ih =>
    obtain ⟨hb, hbs⟩ := List.forall_mem_cons.1 h.given
    obtain ⟨hcloses, hchain⟩ := List.isChain_cons.1 h.chain
    have hrest (index : Nat) {narration : Option String} hn := @ih index narration hn ⟨hbs, hchain⟩
    -- What follows a node comes from a block behind that of the node.
    have hbehind (hne : bs ≠ []) : b.form.Closes := by
      obtain ⟨c, cs, rfl⟩ := List.exists_cons_of_ne_nil hne
      exact hcloses c rfl
    rcases b.cases_narration with ⟨url, hform, -⟩ | ⟨hnone, ⟨content, hform⟩ | htext⟩
    · rw [result_nodes_narration hform]
      rw [hform] at hb
      have hurl : ∀ u ∈ some url, IsAddress u := fun u hu => by
        cases hu
        exact hb
      exact fun ns hns => ⟨(hrest index hurl ns hns).1, fun _ => List.cons_ne_nil b bs⟩
    · rw [hform] at hb hbehind
      rw [result_nodes_text hform]
      refine (hrest (index + 1) (by simp)).map fun ns hns => ⟨?_, fun _ => List.cons_ne_nil b bs⟩
      exact hns.1.cons ⟨hb, hnarration⟩ fun hne => hbehind (hns.2 hne)
    · rw [result_nodes_other hnone htext]
      refine (gives_givenNode _ hb htext).bind fun n hn => ?_
      refine (hrest (index + 1) (by simp)).map fun ns hns => ⟨?_, fun _ => List.cons_ne_nil b bs⟩
      exact hns.1.cons hn.1 fun _ => hn.2

/-! ## Scenes -/

/-- A scene of a story is that of a draft of its script. -/
theorem exists_draft_of_mem {ds : List Draft} {scenes : Mapping (Scene Generated)}
    (h : (ds.foldlM addScene Mapping.empty).result = .ok scenes) {s : Scene Generated}
    (hs : s ∈ scenes.values) : ∃ d ∈ ds, (scene d).result = .ok s := by
  obtain ⟨⟨id, s⟩, hmem, rfl⟩ := List.mem_map.1 hs
  have htally := tally_foldlM tally_nil h
  obtain ⟨d, hd, hscene⟩ := htally.last id s (Mapping.get?_eq_some_iff.2 hmem)
  rw [List.findRev?_eq_find?_reverse] at hd
  exact ⟨d, List.mem_reverse.1 (List.mem_of_find?_eq_some hd), hscene⟩

/-- The scenes of a story are as its script gives them. -/
theorem given_of_compile {source : String} {g : Game} (h : (compile source).result = .ok g) :
    ∀ s ∈ g.scenes.values, s.Given := by
  intro s hs
  obtain ⟨p, ds, -, hds, hscenes, -⟩ := compile_eq_ok h
  obtain ⟨d, hd, hscene⟩ := exists_draft_of_mem hscenes hs
  obtain ⟨hname, hsound⟩ := gives_drafts _ _ ds hds d hd
  have hblocks := gives_givenBlocks _ _ ds hds d hd
  obtain ⟨hid, hnormal⟩ := gives_scene hsound s hscene
  rw [result_scene] at hscene
  obtain ⟨ns, hns, rfl⟩ := Except.map_eq_ok_iff.1 hscene
  exact ⟨hname, hnormal, (gives_givenNodes d.id 0 (by simp) hblocks ns hns).1⟩

end Script

end Storyline
