import Storyline.Proofs.Mapping
import Storyline.Proofs.Script.Compiled
import Storyline.Proofs.Script.Media
import Storyline.Proofs.Script.Prose

/-!
# The normal form of parsed stories

A story that comes from a script has a form of its own. No text of it is empty, begins or ends with
blanks or a rule, or stands right behind another text unless a sound is named between the two; what
a choice or a fence says is trimmed, and what it leaves out is missing, not empty. So a story can be
written down without two texts running together or a text losing its first line.

## Main definitions

* `Passage`, `Choice.Normal`, `Node.Normal`: texts, choices and nodes as scripts give them
* `Node.Follows`: which node may stand behind which
* `Scene.Normal`, `Game.Normal`: the same for scenes and stories
* `Form.Sound`, `Grouping.Sound`: the forms of lines, and the blocks that pieces are grouped into

## Main results

* `passage_of_proseBlock?`: the text of prose lines
* `sound_group`: one more piece in front keeps blocks sound
* `gives_nodes`: the nodes of sound blocks
* `normal_of_parse`: a parsed story is normal
-/

namespace Storyline

open Text

/-! ## Normal stories -/

/-- A text with nothing at its ends that would be lost: no blanks and no rules. -/
structure Passage (content : String) : Prop where
  filled : Filled content.toList
  head : ∀ l ∈ (lines content.toList).head?, Script.isRule l = false
  last : ∀ l ∈ (lines content.toList).getLast?, Script.isRule l = false

/-- A choice with a trimmed text and the name of a scene; what it says besides is filled. -/
structure Choice.Normal (c : Choice) : Prop where
  text : trimmed c.text = c.text
  target : Script.IsName c.target
  condition : ∀ s ∈ c.condition, Filled s.toList
  assignment : ∀ s ∈ c.assignment, Filled s.toList
  audio : ∀ s ∈ c.audio, Filled s.toList

namespace Node

/-- Whether a node is one that a script can give. -/
def Normal : Node Generated → Prop
  | .text content _ => Passage content
  | .image _ _ | .audio _ | .video _ => True
  | .choice c => c.Normal
  | .generated media => media.Normal

/-- Whether a node may stand behind another: a text behind a text has narration. -/
def Follows : Node Generated → Node Generated → Prop
  | .text _ _, .text _ narration => ∃ url ∈ narration, Filled url.toList
  | _, _ => True

theorem follows_of_content? {m n : Node Generated} (h : m.content? = none ∨ n.content? = none) :
    m.Follows n := by
  cases m <;> cases n <;> first | trivial | (rcases h with h | h <;> cases h)

end Node

/-- A scene of normal nodes, of which each may stand behind the one before it. -/
structure Scene.Normal (s : Scene Generated) : Prop where
  nodes : ∀ n ∈ s.nodes, n.Normal
  chain : s.nodes.IsChain Node.Follows

/-- Whether scenes are normal, each under its own name. -/
def NormalScenes (scenes : Mapping (Scene Generated)) : Prop :=
  ∀ id s, scenes.get? id = some s → Script.IsName id ∧ s.id = id ∧ s.Normal

/-- A story is normal if its scenes are. -/
def Game.Normal (g : Game) : Prop :=
  NormalScenes g.scenes

namespace Script

open Except

/-! ## What lines say -/

section

variable {l s : List Char}

theorem isName_of_takeWhile (h : s.takeWhile isNameChar ≠ []) :
    IsName (String.ofList (s.takeWhile isNameChar)) := by
  unfold IsName
  rw [String.toList_ofList]
  exact ⟨h, List.all_eq_true.1 List.all_takeWhile⟩

theorem isName_of_header? {id : String} (h : header? l = some id) : IsName id := by
  obtain ⟨r, -, h⟩ := Option.bind_eq_some_iff.1 h
  dsimp only at h
  split at h
  · next hname =>
    cases h
    exact isName_of_takeWhile (by simpa using (Bool.and_eq_true_iff.1 hname).1)
  · cases h

theorem isName_of_arrow? {p : String × List Char} (h : arrow? s = some p) : IsName p.1 := by
  obtain ⟨r, -, h⟩ := Option.bind_eq_some_iff.1 h
  dsimp only at h
  split at h
  · cases h
  · next hne =>
    cases h
    exact isName_of_takeWhile hne

theorem isName_of_bracketed? {p : List Char × String × List Char} (h : bracketed? s = some p) :
    IsName p.2.1 := by
  induction s generalizing p with
  | nil => cases h
  | cons c r ih =>
    rw [bracketed?] at h
    split at h
    · next q hq =>
      cases h
      split at hq
      · exact isName_of_arrow? hq
      · cases hq
    · obtain ⟨q, hq, rfl⟩ := Option.map_eq_some_iff.1 h
      show IsName q.2.1
      exact ih hq

theorem trimmed_of_mem_clauseList {p : String × String} (h : p ∈ (clauseList s).1) :
    trimmed p.2 = p.2 := by
  fun_induction clauseList s with
  | case1 => cases h
  | case2 c r _ _ ih => exact ih h
  | case3 => cases h
  | case4 c r name t _ content rest _ _ ih =>
    rcases List.mem_cons.1 h with rfl | h
    · rw [trimmed, String.toList_ofList, trim_trim]
    · exact ih h

/-- The clauses of a choice are trimmed. -/
theorem trimmed_of_readClauses {name clause : String}
    (h : (readClauses s).1.get? name = some clause) : trimmed clause = clause := by
  unfold readClauses at h
  exact trimmed_of_mem_clauseList (p := (name, clause)) (Mapping.mem_of_get?_ofList h)

end

/-! ## Sound forms -/

/-- Whether a form is as the lines of a script give it. -/
def Form.Sound : Form → Prop
  | .text content => Passage content
  | .choice _ target clauses =>
    IsName target ∧ ∀ name clause, clauses.get? name = some clause → trimmed clause = clause
  | .narration url => Filled url.toList
  | .fence _ _ | .image _ _ | .audio _ | .video _ | .unknown _ => True

/-- Whether a form is a text. -/
def Form.isText : Form → Bool
  | .text _ => true
  | _ => false

theorem sound_of_lineForm? {l : List Char} {f : Form} {leftover : String}
    (h : lineForm? l = some (f, leftover)) : f.Sound := by
  rcases lineForm?_cases h with h | ⟨-, h | h | h | h⟩
  · obtain ⟨c, r, q, -, -, hq, he⟩ := choice?_eq_some h
    cases he
    obtain ⟨t, -, ht⟩ := Option.bind_eq_some_iff.1 hq
    exact ⟨isName_of_bracketed? ht, fun _ _ => trimmed_of_readClauses⟩
  · obtain ⟨_, _, -, -, rfl⟩ := image?_eq_some h
    trivial
  · obtain ⟨_, _, -, -, rfl⟩ := audio?_eq_some h
    trivial
  · obtain ⟨_, _, -, -, rfl⟩ := video?_eq_some h
    trivial
  · obtain ⟨_, _, u, -, -, -, hempty, hblank, rfl⟩ := narration?_eq_some h
    show Filled (String.ofList (trim u)).toList
    rw [String.toList_ofList]
    exact ⟨by simpa using hempty, trim_trim u⟩

/-! ## Prose -/

theorem isRule_of_trim_eq {k l : List Char} (htrim : trim k = trim l) (hl : isIdle l = false) :
    isRule k = false := by
  rw [isIdle, Bool.or_eq_false_iff] at hl
  rw [isRule, htrim]
  exact hl.2

/-- Lines of which the first and the last are not idle make a passage. -/
theorem passage_of_lines {ls : List (List Char)} (hne : ls ≠ []) (hbreak : ∀ l ∈ ls, '\n' ∉ l)
    (hhead : ∀ l ∈ ls.head?, isIdle l = false) (hlast : ∀ l ∈ ls.getLast?, isIdle l = false) :
    Passage (String.ofList (trim (unlines ls))) := by
  -- Up to blanks, the first and the last line of the text are those of the lines.
  have hlines := map_trim_lines_trim_unlines hne hbreak
    (fun l hl => not_blank_of_not_idle (hhead l hl)) fun l hl => not_blank_of_not_idle (hlast l hl)
  constructor <;> rw [String.toList_ofList]
  · refine filled_trim fun hblank => ?_
    obtain ⟨l, rest, rfl⟩ := List.exists_cons_of_ne_nil hne
    rw [trim_eq_nil_iff.2 hblank, lines_nil, List.map_singleton, List.map_cons] at hlines
    exact not_blank_of_not_idle (hhead l rfl) (trim_eq_nil_iff.1 (List.cons.inj hlines).1.symm)
  · intro k hk
    have hmem : trim k ∈ (ls.map trim).head? := by
      rw [← hlines, List.head?_map]
      exact Option.mem_map_of_mem trim hk
    rw [List.head?_map] at hmem
    obtain ⟨l, hl, htrim⟩ := Option.map_eq_some_iff.1 hmem
    exact isRule_of_trim_eq htrim.symm (hhead l hl)
  · intro k hk
    have hmem : trim k ∈ (ls.map trim).getLast? := by
      rw [← hlines, List.getLast?_map]
      exact Option.mem_map_of_mem trim hk
    rw [List.getLast?_map] at hmem
    obtain ⟨l, hl, htrim⟩ := Option.map_eq_some_iff.1 hmem
    exact isRule_of_trim_eq htrim.symm (hlast l hl)

/-- The text of prose lines is a passage. -/
theorem passage_of_proseBlock? {ls : List (Nat × List Char)} {b : Block}
    (hbreak : ∀ p ∈ ls, '\n' ∉ p.2) (h : proseBlock? ls = some b) :
    ∃ content, b.form = .text content ∧ Passage content := by
  obtain ⟨front, back, hls, -, -, hhead, hlast⟩ := withoutIdleEnds_spec ls
  unfold proseBlock? at h
  split at h
  · cases h
  · next p ps hps =>
    obtain rfl := Option.some.inj h
    rw [hps] at hls hhead hlast
    refine ⟨_, rfl, passage_of_lines (List.cons_ne_nil _ _) ?_ ?_ ?_⟩
    · intro l hl
      obtain ⟨q, hq, rfl⟩ := List.mem_map.1 hl
      refine hbreak q ?_
      rw [hls]
      exact List.mem_append_left _ (List.mem_append_right _ hq)
    · intro l hl
      cases hl
      exact hhead p rfl
    · intro l hl
      rw [List.getLast?_map] at hl
      obtain ⟨q, hq, rfl⟩ := Option.map_eq_some_iff.1 hl
      exact hlast q hq

/-! ## Blocks -/

/-- Blocks of sound forms, of which no two texts stand beside each other. -/
structure SoundBlocks (bs : List Block) : Prop where
  sound : ∀ b ∈ bs, b.form.Sound
  chain : bs.IsChain fun a b => a.form.isText = true → b.form.isText = false

theorem soundBlocks_nil : SoundBlocks [] :=
  ⟨List.forall_mem_nil _, .nil⟩

theorem SoundBlocks.cons {b : Block} {bs : List Block} (h : SoundBlocks bs) (hb : b.form.Sound)
    (hfront : b.form.isText = true → ∀ c ∈ bs.head?, c.form.isText = false) :
    SoundBlocks (b :: bs) :=
  ⟨List.forall_mem_cons.2 ⟨hb, h.sound⟩,
    List.isChain_cons.2 ⟨fun c hc htext => hfront htext c hc, h.chain⟩⟩

/-- A grouping of sound pieces. Its blocks begin with no text, since prose in front of them may
still grow. -/
structure Grouping.Sound (g : Grouping) : Prop where
  prose : ∀ p ∈ g.prose, '\n' ∉ p.2
  blocks : SoundBlocks g.blocks
  front : ∀ b ∈ g.blocks.head?, b.form.isText = false
  drafts : ∀ d ∈ g.drafts, IsName d.id ∧ SoundBlocks d.blocks

/-- Whether a piece is as the lines of a script give it. -/
def Piece.Sound : Piece → Prop
  | .header id => IsName id
  | .form f _ => f.Sound ∧ f.isText = false
  | .prose l => '\n' ∉ l
  | .unclosed _ => True

theorem sound_of_mem_pieces {n : Nat} {ls : List (List Char)} (hbreak : ∀ l ∈ ls, '\n' ∉ l)
    {p : Nat × Piece} (h : p ∈ pieces n ls) : p.2.Sound := by
  have hfrom := from_of_mem_pieces h
  obtain ⟨m, p⟩ := p
  cases p with
  | header id =>
    obtain ⟨l, -, hid⟩ := hfrom
    exact isName_of_header? hid
  | form f leftover =>
    rcases hfrom with ⟨name, content, rfl⟩ | ⟨l, -, hform⟩
    · exact ⟨trivial, rfl⟩
    · refine ⟨sound_of_lineForm? hform, ?_⟩
      have hline := onOneLine_of_lineForm? hform
      cases f <;> first | rfl | cases hline
  | prose l => exact hbreak l hfrom
  | unclosed fence => trivial

theorem Grouping.Sound.allBlocks {g : Grouping} (h : g.Sound) : SoundBlocks g.allBlocks := by
  unfold Grouping.allBlocks
  cases hblock : proseBlock? g.prose with
  | none => exact h.blocks
  | some b =>
    obtain ⟨content, hform, hpassage⟩ := passage_of_proseBlock? h.prose hblock
    refine h.blocks.cons ?_ fun _ => h.front
    rw [hform]
    exact hpassage

theorem Grouping.Sound.cons {g : Grouping} (h : g.Sound) {p : Nat × Piece} (hp : p.2.Sound) :
    (Grouping.cons p g).Sound := by
  obtain ⟨n, p⟩ := p
  cases p with
  -- The blocks up to here become those of a scene, and a new row of blocks begins.
  | header id =>
    exact ⟨List.forall_mem_nil _, soundBlocks_nil, by simp [Grouping.cons],
      List.forall_mem_cons.2 ⟨⟨hp, h.allBlocks⟩, h.drafts⟩⟩
  | form f leftover =>
    obtain ⟨hsound, htext⟩ := hp
    refine ⟨List.forall_mem_nil _, h.allBlocks.cons hsound fun hf => ?_, ?_, h.drafts⟩
    · exact absurd (htext.symm.trans hf) Bool.false_ne_true
    · rintro b hb
      cases hb
      exact htext
  | prose l => exact ⟨List.forall_mem_cons.2 ⟨hp, h.prose⟩, h.blocks, h.front, h.drafts⟩
  | unclosed fence => exact h

/-- Sound pieces are grouped into sound blocks and scenes. -/
theorem sound_group {ps : List (Nat × Piece)} (h : ∀ p ∈ ps, p.2.Sound) : (group ps).Sound := by
  induction ps with
  | nil =>
    exact ⟨List.forall_mem_nil _, soundBlocks_nil, by simp [group], List.forall_mem_nil _⟩
  | cons p ps ih =>
    obtain ⟨hp, hps⟩ := List.forall_mem_cons.1 h
    exact (ih hps).cons hp

/-- The scenes of a script have names, and their blocks are sound. -/
theorem gives_drafts (n : Nat) (body : String) :
    (drafts n body).result.Gives fun ds => ∀ d ∈ ds, IsName d.id ∧ SoundBlocks d.blocks := by
  intro ds h
  obtain ⟨preamble, rest, hls, hpreamble, hrest⟩ := exists_preamble (lines body.toList)
  rw [drafts, hls, result_draftsOfLines hpreamble hrest] at h
  obtain ⟨-, rfl⟩ := scenesOf_eq_ok h
  have hbreak : ∀ l ∈ rest, '\n' ∉ l := fun l hl =>
    not_mem_of_mem_lines (hls ▸ List.mem_append_right preamble hl)
  exact (sound_group fun p hp => sound_of_mem_pieces hbreak hp).drafts

/-! ## Nodes -/

theorem filled_clause {clauses : Mapping String}
    (h : ∀ name clause, clauses.get? name = some clause → trimmed clause = clause)
    (name : String) : ∀ s ∈ (clauses.get? name).filter fun c => !c.isEmpty, Filled s.toList := by
  intro s hs
  obtain ⟨hclause, hempty⟩ := Option.filter_eq_some_iff.1 hs
  have htrim := congrArg String.toList (h name s hclause)
  rw [trimmed, String.toList_ofList] at htrim
  exact ⟨by simpa using hempty, htrim⟩

/-- A sound block becomes a normal node, and only a text becomes a text. -/
theorem gives_blockNode (place : Place) {b : Block} (hb : b.form.Sound) :
    (blockNode place b).Gives fun n =>
      n.Normal ∧ (b.form.isText = false → n.content? = none) := by
  unfold blockNode
  split
  · next content hform =>
    rw [hform] at hb ⊢
    exact gives_ok ⟨hb, fun htext => by cases htext⟩
  · next text target clauses hform =>
    rw [hform] at hb
    exact gives_ok ⟨⟨trimmed_trimmed text, hb.1, filled_clause hb.2 "if", filled_clause hb.2 "set",
      filled_clause hb.2 "audio"⟩, fun _ => rfl⟩
  · exact gives_ok ⟨trivial, fun _ => rfl⟩
  · exact gives_ok ⟨trivial, fun _ => rfl⟩
  · exact gives_ok ⟨trivial, fun _ => rfl⟩
  · exact gives_bind fun data => (gives_readMedia _ place data).bind fun media hmedia =>
      gives_ok ⟨hmedia, fun _ => rfl⟩
  · exact gives_error _
  · exact gives_error _

/-- Nodes that stand behind something: normal, each behind the one before it, and the first behind
any node if `free`. -/
structure NormalNodes (free : Prop) (ns : List (Node Generated)) : Prop where
  normal : ∀ n ∈ ns, n.Normal
  chain : ns.IsChain Node.Follows
  front : free → ∀ n ∈ ns.head?, ∀ m : Node Generated, m.Follows n

theorem NormalNodes.mono {free free' : Prop} {ns : List (Node Generated)}
    (h : NormalNodes free ns) (himp : free' → free) : NormalNodes free' ns :=
  ⟨h.normal, h.chain, fun hfree => h.front (himp hfree)⟩

theorem normalNodes_nil (free : Prop) : NormalNodes free [] :=
  ⟨List.forall_mem_nil _, .nil, by simp⟩

/-- The nodes of sound blocks. Only a text without narration cannot stand behind everything, and
behind a text there is none. -/
theorem gives_nodes (id : String) (index : Nat) {narration : Option String} {bs : List Block}
    (hnarration : ∀ url ∈ narration, Filled url.toList) (h : SoundBlocks bs) :
    (nodes id index narration bs).result.Gives
      (NormalNodes (narration ≠ none ∨ ∀ b ∈ bs.head?, b.form.isText = false)) := by
  induction bs generalizing index narration with
  | nil =>
    rw [result_nodes_nil]
    exact gives_ok (normalNodes_nil _)
  | cons b bs ih =>
    obtain ⟨hb, hbs⟩ := List.forall_mem_cons.1 h.sound
    obtain ⟨hfront, hchain⟩ := List.isChain_cons.1 h.chain
    have hrest (index : Nat) {narration : Option String} hn := @ih index narration hn ⟨hbs, hchain⟩
    rcases b.cases_narration with ⟨url, hform, -⟩ | ⟨hnone, ⟨content, hform⟩ | htext⟩
    -- Narration waits for the next node, which then stands behind anything.
    · rw [result_nodes_narration hform]
      rw [hform] at hb
      have hurl : ∀ u ∈ some url, Filled u.toList := fun u hu => by
        cases hu
        exact hb
      exact fun ns hns => (hrest index hurl ns hns).mono fun _ => .inl (Option.some_ne_none url)
    -- No text comes next, so the nodes after this one stand behind anything.
    · rw [hform] at hb hfront
      rw [result_nodes_text hform]
      refine (hrest (index + 1) (by simp)).map fun ns hns => ⟨?_, ?_, ?_⟩
      · exact List.forall_mem_cons.2 ⟨hb, hns.normal⟩
      · exact List.isChain_cons.2 ⟨fun n hn =>
          hns.front (.inr fun c hc => hfront c hc rfl) n hn _, hns.chain⟩
      · rintro hfree n hn m
        cases hn
        rcases hfree with hwaiting | hnone
        · obtain ⟨url, rfl⟩ := Option.ne_none_iff_exists'.1 hwaiting
          cases m with
          | text _ _ => exact ⟨url, rfl, hnarration url rfl⟩
          | _ => trivial
        · have htext := hnone b rfl
          rw [hform] at htext
          cases htext
    -- Any other node stands behind anything, and anything behind it.
    · have hother : b.form.isText = false := by
        cases hb : b.form <;> first | rfl | exact absurd hb (htext _)
      rw [result_nodes_other hnone htext]
      refine (gives_blockNode _ hb).bind fun n hn => ?_
      refine (hrest (index + 1) (by simp)).map fun ns hns => ⟨?_, ?_, ?_⟩
      · exact List.forall_mem_cons.2 ⟨hn.1, hns.normal⟩
      · exact List.isChain_cons.2
          ⟨fun m _ => Node.follows_of_content? (.inl (hn.2 hother)), hns.chain⟩
      · rintro - m hm k
        cases hm
        exact Node.follows_of_content? (.inr (hn.2 hother))

/-! ## Stories -/

theorem gives_scene {d : Draft} (h : SoundBlocks d.blocks) :
    (scene d).result.Gives fun s => s.id = d.id ∧ s.Normal := by
  rw [result_scene]
  exact (gives_nodes d.id 0 (by simp) h).map fun ns hns => ⟨rfl, hns.normal, hns.chain⟩

theorem gives_addScene {scenes : Mapping (Scene Generated)} (h : NormalScenes scenes) {d : Draft}
    (hid : IsName d.id) (hblocks : SoundBlocks d.blocks) :
    (addScene scenes d).result.Gives NormalScenes := by
  rw [result_addScene]
  refine (gives_scene hblocks).map fun s hs id t ht => ?_
  rw [Mapping.get?_insert] at ht
  split at ht
  · next hkey =>
    cases ht
    rw [hkey]
    exact ⟨hid, hs⟩
  · exact h id t ht

theorem gives_compile (source : String) : (compile source).result.Gives Game.Normal := by
  intro g h
  obtain ⟨p, ds, -, hds, hscenes, -⟩ := compile_eq_ok h
  have hdrafts := gives_drafts p.bodyLine p.body ds hds
  have hempty : NormalScenes Mapping.empty := fun id s h => by cases h
  exact Logged.gives_foldlM (fun scenes hscenes d hd =>
    gives_addScene hscenes (hdrafts d hd).1 (hdrafts d hd).2) hempty g.scenes hscenes

/-- **A parsed story is normal**, whatever the script: its scenes stand under their own names, its
texts have nothing at their ends that would be lost and are kept apart by narration, and what a
choice or a fence says is trimmed and there, or left out. -/
theorem normal_of_parse {strict : Bool} {source : String} {g : Game}
    (h : (parse strict source).result = .ok (.ok g)) : g.Normal := by
  refine gives_compile source g ?_
  unfold parse at h
  split at h
  · cases h
  · dsimp only at h
    split at h
    · cases h
    · cases h
    · cases h
    · next game hgame =>
      rw [hgame]
      split at h
      · cases h
        rfl
      · split at h
        · cases h
        · next issues _ =>
          dsimp only at h
          split at h <;> cases h
          rfl

/-- A scene with two texts that narration keeps apart, and with blanks that are trimmed. -/
def innBody : String :=
  "# start\n---\nHello\n<!-- audio: a -->\nWelcome\n* [ Stay ] -> start (set: )\n" ++
    "```image-gen\nprompt: x\n```"

/-- The same scene as blocks. -/
def innDraft : Draft where
  id := "start"
  line := 4
  blocks := [
    { line := 6, form := .text "Hello" },
    { line := 7, form := .narration "a" },
    { line := 8, form := .text "Welcome" },
    { line := 9, form := .choice " Stay " "start" (Mapping.ofList [("set", "")]) },
    { line := 10, form := .fence "image-gen" "prompt: x" }]

theorem inn_normal :
    ∃ g, (parse false ("---\ntitle: T\n---\n" ++ innBody)).result = .ok (.ok g) ∧ g.Normal := by
  have hparts : split? ("---\ntitle: T\n---\n" ++ innBody) =
      some { metadata := "title: T", body := innBody, bodyLine := 4 } := by decide +kernel
  have hdrafts : (drafts 4 innBody).result = .ok [innDraft] := by cbv
  have hscenes : ([innDraft].foldlM addScene Mapping.empty).result.isOk = true := by
    decide +kernel
  have hgame : (loadMetadata "title: T" >>= readMetadata).isOk = true := by decide +kernel
  obtain ⟨game, hgame⟩ := exists_of_isOk hgame
  obtain ⟨metadata, hmetadata, hgame⟩ := bind_eq_ok_iff.1 hgame
  obtain ⟨g, hg⟩ := exists_parse (by decide +kernel) hparts hmetadata hdrafts hscenes
    (by rw [hgame]; rfl)
  exact ⟨g, hg, normal_of_parse hg⟩

end Script

end Storyline
