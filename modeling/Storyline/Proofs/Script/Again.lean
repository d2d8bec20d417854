import Storyline.Proofs.Script.Framing
import Storyline.Proofs.Script.Given
import Storyline.Proofs.Script.Reread

/-!
# Written nodes are read again

The lines that are written for a node, read in a scene and in front of other lines, give the node
and then what the other lines give.

## Main definitions

* `Node.Lasts`: a node of which nothing is lost when its lines are read
* `Written`: what is written for a node
* `ReadInFront`, `RowInFront`: pieces that give a node, or nodes in a row, in front of what other
  pieces give

## Main results

* `readInFront_text`, `readInFront_narrated`, `readInFront_form`: one node in front
* `readInFront_nodeLines`, `rowInFront_nodeLines`: the lines of a node, and of nodes in a row
-/

namespace Storyline

open Text

/-- Whether nothing of a node is lost when its lines are read: the text holds no line break that is
normalized and no header outside its fences, and the fields of generated media last. -/
def Node.Lasts : Node Generated → Prop
  | .text content _ =>
    normalizeBreaks content.toList = content.toList ∧
      Script.Region.scene.headers 0 (lines content.toList) = []
  | .generated media => Yaml.Lasting (Script.asEntries (Script.mediaFields media))
  | _ => True

instance : (n : Node Generated) → Decidable n.Lasts
  | .text content _ => inferInstanceAs (Decidable (normalizeBreaks content.toList = content.toList ∧
      Script.Region.scene.headers 0 (lines content.toList) = []))
  | .generated media =>
    inferInstanceAs (Decidable (Yaml.Lasting (Script.asEntries (Script.mediaFields media))))
  | .image .. | .audio _ | .video _ | .choice _ => .isTrue trivial

namespace Script

/-! ## Passages -/

/-- The first line of a filled text is not blank. -/
theorem not_blank_of_mem_head?_lines {s : List Char} (h : Filled s) :
    ∀ l ∈ (lines s).head?, ¬Blank l := by
  intro l hl hblank
  obtain ⟨ls, hls⟩ := List.head?_eq_some_iff.1 hl
  have hhead := (trim_eq_self_iff.1 h.2).1
  rw [← unlines_lines s, hls, unlines_cons] at hhead
  cases l with
  | cons c l => exact absurd (hhead c rfl) (by simp [hblank c List.mem_cons_self])
  | nil =>
    cases ls with
    | nil => exact h.1 (by rw [← unlines_lines s, hls]; rfl)
    | cons m ms => exact absurd (hhead '\n' rfl) (by decide)

/-- The last line of a filled text is not blank. -/
theorem not_blank_of_mem_getLast?_lines {s : List Char} (h : Filled s) :
    ∀ l ∈ (lines s).getLast?, ¬Blank l := by
  intro l hl hblank
  obtain ⟨ls, hls⟩ := List.getLast?_eq_some_iff.1 hl
  have hs := unlines_lines s
  rw [hls] at hs
  by_cases hne : ls = []
  · rw [hne] at hs
    exact h.not_blank (hs ▸ hblank)
  · rw [unlines_append hne (List.cons_ne_nil l [])] at hs
    have hend : ∃ c ∈ s.getLast?, isBlank c = true := by
      have hlast : ∀ c ∈ '\n' :: l, isBlank c = true :=
        List.forall_mem_cons.2 ⟨by decide, hblank⟩
      refine ⟨('\n' :: l).getLast (List.cons_ne_nil _ _), ?_, hlast _ (List.getLast_mem _)⟩
      rw [← hs, List.getLast?_append_of_ne_nil _ (List.cons_ne_nil _ _)]
      exact List.getLast?_eq_some_getLast _
    obtain ⟨c, hc, hcblank⟩ := hend
    rw [(trim_eq_self_iff.1 h.2).2 c hc] at hcblank
    cases hcblank

theorem not_idle_of_not_blank {l : List Char} (hblank : ¬Blank l) (hrule : isRule l = false) :
    isIdle l = false := by
  rw [isIdle, hrule, Bool.or_false]
  exact Bool.eq_false_iff.2 fun h => hblank (isEmpty_trim_iff.1 h)

theorem not_idle_of_passage {content : String} (h : Passage content) :
    (∀ l ∈ (lines content.toList).head?, isIdle l = false) ∧
      ∀ l ∈ (lines content.toList).getLast?, isIdle l = false :=
  ⟨fun l hl => not_idle_of_not_blank (not_blank_of_mem_head?_lines h.filled l hl) (h.head l hl),
    fun l hl => not_idle_of_not_blank (not_blank_of_mem_getLast?_lines h.filled l hl) (h.last l hl)⟩

/-- The lines of a passage make a block of that text. -/
theorem proseBlock?_passage {content : String} (h : Passage content) (n : Nat) :
    proseBlock? (numbered n (lines content.toList)) = some ⟨n, .text content⟩ := by
  obtain ⟨hhead, hlast⟩ := not_idle_of_passage h
  rw [proseBlock?_eq (lines_ne_nil _) hhead hlast, unlines_lines, h.filled.2, String.ofList_toList]

/-! ## One node in front -/

/-- Whether pieces are read as a node and then as other pieces. -/
structure ReadInFront (n : Node Generated) (ps qs : List (Nat × Piece)) : Prop where
  closed : ∀ scene, unclosed? scene ps = unclosed? scene qs
  drafts : (group ps).drafts = (group qs).drafts
  nodes : ∀ id index, (nodes id index none (group ps).allBlocks).result =
    (Script.nodes id (index + 1) none (group qs).allBlocks).result.map (n :: ·)

theorem numbered_append (n : Nat) (ls ms : List (List Char)) :
    numbered n (ls ++ ms) = numbered n ls ++ numbered (n + ls.length) ms := by
  induction ls generalizing n with
  | nil => rfl
  | cons l ls ih =>
    rw [List.cons_append, numbered, numbered, ih, List.length_cons, List.cons_append,
      Nat.add_right_comm, Nat.add_assoc]

/-- Lines of prose, as pieces. -/
def prosePieces (n : Nat) (ls : List (List Char)) : List (Nat × Piece) :=
  (numbered n ls).map fun p => (p.1, .prose p.2)

/-- Lines of prose are pieces one by one. -/
theorem pieces_of_prose {n : Nat} {ls : List (List Char)} (h : ∀ p ∈ pieces n ls, p.2.IsProse) :
    pieces n ls = prosePieces n ls := by
  unfold prosePieces
  induction n, ls using pieces.induct with
  | case1 n =>
    rw [pieces_nil]
    rfl
  | case2 n l ls id hid ih =>
    rw [pieces_header hid] at h
    exact (h _ List.mem_cons_self).elim
  | case3 n l ls hid hinfo ih =>
    rw [pieces_line hid hinfo] at h ⊢
    obtain ⟨hl, hls⟩ := List.forall_mem_cons.1 h
    rcases linePiece_eq l with ⟨hpiece, -⟩ | ⟨f, leftover, hpiece, -⟩
    · rw [hpiece, ih hls]
      rfl
    · rw [hpiece] at hl
      exact hl.elim
  | case4 n l ls hid name hinfo hname hclosing =>
    rw [pieces_unclosed hid hinfo hname hclosing] at h
    exact (h _ List.mem_cons_self).elim
  | case5 n l ls hid name hinfo hname content rest hclosing ih =>
    rw [pieces_fence hid hinfo hname hclosing] at h
    exact (h _ List.mem_cons_self).elim
  | case6 n l ls hid info hinfo hname inside ih =>
    rw [pieces_plain hid hinfo hname] at h ⊢
    have hsplit : l :: ls = l :: inside ++ (throughClosing ls).2 := by
      rw [List.cons_append, throughClosing_append]
    rw [ih (List.forall_mem_append.1 h).2, map_zipIdx_prose, ← List.map_append, hsplit,
      numbered_append]
    rfl

theorem unclosed?_prosePieces (scene : Option String) (n : Nat) (ls : List (List Char))
    (qs : List (Nat × Piece)) :
    unclosed? scene (prosePieces n ls ++ qs) = unclosed? scene qs := by
  unfold prosePieces
  induction numbered n ls with
  | nil => rfl
  | cons p ps ih => exact ih

theorem group_prosePieces (n : Nat) (ls : List (List Char)) (qs : List (Nat × Piece)) :
    group (prosePieces n ls ++ qs) =
      { group qs with prose := numbered n ls ++ (group qs).prose } := by
  rw [group, List.foldr_append, prosePieces, foldr_prose]
  rfl

section

variable {n : Node Generated} {qs : List (Nat × Piece)} {content : String} {f : Form}

/-- Idle prose in front makes no block. -/
theorem allBlocks_of_idle (h : ∀ p ∈ (group qs).prose, isIdle p.2 = true) :
    (group qs).allBlocks = (group qs).blocks := by
  rw [Grouping.allBlocks, proseBlock?_eq_none_iff.2 h]
  rfl

/-- The lines of a passage make one block in front of others. -/
theorem allBlocks_prosePieces (h : Passage content) (k : Nat)
    (hidle : ∀ p ∈ (group qs).prose, isIdle p.2 = true) :
    (group (prosePieces k (lines content.toList) ++ qs)).allBlocks =
      ⟨k, .text content⟩ :: (group qs).allBlocks := by
  rw [group_prosePieces, Grouping.allBlocks, proseBlock?_append_idle _ hidle,
    proseBlock?_passage h, allBlocks_of_idle hidle]
  rfl

/-- A text is read in front of what does not begin with prose. -/
theorem readInFront_text (h : Passage content) (k : Nat)
    (hidle : ∀ p ∈ (group qs).prose, isIdle p.2 = true) :
    ReadInFront (.text content none) (prosePieces k (lines content.toList) ++ qs) qs where
  closed scene := unclosed?_prosePieces scene k _ qs
  drafts := by rw [group_prosePieces]
  nodes id index := by rw [allBlocks_prosePieces h k hidle, result_nodes_text rfl]

/-- A text with a sound is read behind the comment that names the sound. -/
theorem readInFront_narrated (h : Passage content) (url : String) (j k : Nat) (leftover : String)
    (hidle : ∀ p ∈ (group qs).prose, isIdle p.2 = true) :
    ReadInFront (.text content (some url)) ((j, .form (.narration url) leftover) ::
      (prosePieces k (lines content.toList) ++ qs)) qs where
  closed scene := unclosed?_prosePieces scene k _ qs
  drafts := by
    show (group (prosePieces k (lines content.toList) ++ qs)).drafts = _
    rw [group_prosePieces]
  nodes id index := by
    show (Script.nodes id index none (⟨j, .narration url⟩ :: (group _).allBlocks)).result = _
    rw [allBlocks_prosePieces h k hidle, result_nodes_narration rfl, result_nodes_text rfl]

/-- A form that becomes a node by itself is read in front of anything. -/
theorem readInFront_form (k : Nat) (leftover : String)
    (hnarration : (Block.mk k f).narration? = none) (htext : ∀ content, f ≠ .text content)
    (hnode : ∀ place, blockNode place ⟨k, f⟩ = .ok n) :
    ReadInFront n ((k, .form f leftover) :: qs) qs where
  closed _ := rfl
  drafts := rfl
  nodes id index := by
    show (Script.nodes id index none (⟨k, f⟩ :: (group qs).allBlocks)).result = _
    rw [result_nodes_other hnarration htext, hnode]
    rfl

end

/-! ## The lines of a node -/

theorem after?_append (mark r : List Char) : after? mark (mark ++ r) = some r := by
  rw [after?, if_pos (List.isPrefixOf_iff_prefix.2 (List.prefix_append mark r)), List.drop_left]

theorem before?_append (r mark : List Char) : before? mark (r ++ mark) = some r := by
  rw [before?, List.reverse_append, after?_append, Option.map_some, List.reverse_reverse]

theorem narrationLine_eq (url : String) : s!"<!-- audio: {url} -->".toList = "<!--".toList ++
    (' ' :: ("audio:".toList ++ (' ' :: url.toList ++ [' '] ++ "-->".toList))) := by
  show ("<!-- audio: " ++ url ++ " -->").toList = _
  rw [String.toList_append, String.toList_append]
  simp

theorem narration?_written {url : String} (h : IsAddress url) :
    narration? s!"<!-- audio: {url} -->".toList = some (.narration url) := by
  have hleft (r : List Char) : trimLeft (' ' :: ("audio:".toList ++ r)) = "audio:".toList ++ r :=
    rfl
  have hurl : trim (' ' :: url.toList ++ [' ']) = url.toList := by
    rw [trim_append_blank _ blank_space, ← List.singleton_append, trim_append blank_space,
      trim_of_forall h.2]
  have hblank : url.toList.any isBlank = false := by simpa using h.2
  have hne : url.toList.isEmpty = false := by simpa using h.1
  rw [narration?, narrationLine_eq, after?_append, Option.bind_some, hleft, after?_append,
    Option.bind_some, before?_append, Option.bind_some]
  dsimp only
  rw [hurl, hblank, hne, String.ofList_toList]
  rfl

/-- The comment that is written for a sound is narration. -/
theorem stands_narration {url : String} (h : IsAddress url) :
    Stands s!"<!-- audio: {url} -->".toList (.narration url) := by
  have hform : lineForm? s!"<!-- audio: {url} -->".toList = some (.narration url, "") := by
    have hnarration := narration?_written h
    rw [narrationLine_eq] at hnarration ⊢
    rw [lineForm?, hnarration]
    rfl
  have hbreak : '\n' ∉ s!"<!-- audio: {url} -->".toList := by
    have hurl : '\n' ∉ url.toList := fun hmem => absurd (h.2 _ hmem) (by decide)
    rw [narrationLine_eq]
    simpa using hurl
  have htrim : trim s!"<!-- audio: {url} -->".toList = s!"<!-- audio: {url} -->".toList := by
    have hends := Filled.between (s := "<!--".toList) (t := "-->".toList) ⟨by decide, by decide⟩
      ⟨by decide, by decide⟩ (' ' :: ("audio:".toList ++ (' ' :: url.toList ++ [' '])))
    rw [narrationLine_eq]
    simpa using hends.2
  have hplain : header? s!"<!-- audio: {url} -->".toList = none ∧
      fenceInfo? s!"<!-- audio: {url} -->".toList = none := by
    rw [fenceInfo?, htrim, narrationLine_eq]
    exact ⟨rfl, rfl⟩
  refine ⟨hbreak, fun n rest => ?_⟩
  rw [pieces_line hplain.1 hplain.2, linePiece, htrim, hform]

/-- Lines without a form and without headers are prose, in front of what follows if they close their
fences. -/
theorem pieces_formless {ls : List (List Char)} (hformless : Region.scene.Formless ls)
    (hheaders : Region.scene.headers 0 ls = []) (k : Nat) {rest : List (List Char)}
    (hcloses : Region.scene.after ls ≠ .fence ∨ rest = []) :
    pieces k (ls ++ rest) = prosePieces k ls ++ pieces (k + ls.length) rest := by
  have hprose := pieces_of_prose
    ((isProse_iff k _).2 ⟨hformless, (Region.headers_eq_nil_iff 0 k).1 hheaders⟩)
  rcases hcloses with hcloses | rfl
  · rw [pieces_append hcloses, hprose]
  · rw [List.append_nil, pieces_nil, List.append_nil, hprose]

theorem flatMap_lines {ls : List (List Char)} (h : ∀ l ∈ ls, '\n' ∉ l) : ls.flatMap lines = ls := by
  rw [List.flatMap_congr fun l hl => lines_eq_singleton (h l hl), List.flatMap_singleton']

theorem flatMap_fenceLines (media : Generated) (text : List Char) :
    ((fenceMark ++ (fenceName media).toList) :: lines text ++ [fenceMark]).flatMap lines =
      (fenceMark ++ (fenceName media).toList) :: lines text ++ [fenceMark] := by
  refine flatMap_lines ?_
  rw [List.cons_append, List.forall_mem_cons, List.forall_mem_append]
  exact ⟨(opens_fence _ (fenceName_mem media)).2.2, fun l hl => not_mem_of_mem_lines hl, by decide⟩

theorem flatMap_narrated {url : String} (h : IsAddress url) (content : String) :
    [s!"<!-- audio: {url} -->".toList, content.toList].flatMap lines =
      s!"<!-- audio: {url} -->".toList :: lines content.toList := by
  rw [List.flatMap_cons, List.flatMap_singleton, lines_eq_singleton (stands_narration h).1]
  rfl

/-- What is written for a node that the blocks of a script give. -/
inductive Written : Node Generated → List (List Char) → Prop where
  | text {content : String} (hformless : Region.scene.Formless (lines content.toList)) :
    Written (.text content none) [content.toList]
  | narrated {content url : String} (hformless : Region.scene.Formless (lines content.toList))
    (hurl : IsAddress url) :
    Written (.text content (some url)) [s!"<!-- audio: {url} -->".toList, content.toList]
  | generated {media : Generated} {text : List Char}
    (htext : Yaml.renderBody ["characters"] (asEntries (mediaFields media)) = .ok text) :
    Written (.generated media)
      ((fenceMark ++ (fenceName media).toList) :: lines text ++ [fenceMark])
  /-- Anything else is a line of its own, and nothing of it can be lost. -/
  | single {n : Node Generated} {w : List Char} {f : Form} (hcontent : n.content? = none)
    (hlasts : n.Lasts) (hf : f.isSingle = true) (hfilled : Filled w) (hstands : Stands w f)
    (hnode : ∀ place k, blockNode place ⟨k, f⟩ = .ok n) : Written n [w]

theorem written_of_nodeLines {n : Node Generated} {ls : List (List Char)} (hgiven : n.Given)
    (h : nodeLines n = .ok ls) : Written n ls := by
  have hsingle (hread : ∃ w, nodeLines n = .ok [w] ∧ Filled w ∧ ReadsAs n w)
      (hcontent : n.content? = none) (hlasts : n.Lasts) : Written n ls := by
    obtain ⟨w, hw, hfilled, f, hf, hstands, hnode⟩ := hread
    obtain rfl := Except.ok.inj (hw.symm.trans h)
    exact .single hcontent hlasts hf hfilled hstands hnode
  cases n with
  | text content narration =>
    cases narration with
    | none =>
      cases h
      exact .text hgiven.1
    | some url =>
      have hurl := hgiven.2 url rfl
      obtain rfl : [s!"<!-- audio: {url} -->".toList, content.toList] = ls := by
        have hne : url.isEmpty = false := by simpa using hurl.1
        rw [nodeLines, Option.filter_some, hne] at h
        exact Except.ok.inj h
      exact .narrated hgiven.1 hurl
  | generated media =>
    obtain ⟨text, htext, rfl⟩ := nodeLines_generated h
    exact .generated htext
  | _ => exact hsingle hgiven rfl trivial

/-- What generated media are written as is read as the same media. -/
theorem readInFront_generated {media : Generated} {text : List Char} (hnormal : media.Normal)
    (hlasts : Yaml.Lasting (asEntries (mediaFields media)))
    (htext : Yaml.renderBody ["characters"] (asEntries (mediaFields media)) = .ok text) (k : Nat)
    (qs : List (Nat × Piece)) :
    ReadInFront (.generated media)
      ((k, .form (.fence (fenceName media) (String.ofList text)) "") :: qs) qs := by
  obtain ⟨text', htext', hload⟩ := exists_loadBlock hlasts
  obtain rfl := Except.ok.inj (htext.symm.trans htext')
  refine readInFront_form k "" rfl nofun fun place => ?_
  rw [blockNode]
  dsimp only
  rw [hload]
  show (readMedia _ _ _ >>= fun m => _) = _
  rw [readMedia_mediaFields hnormal]
  rfl

/-- **What is written for a node is read as the node** in front of what follows, if nothing of the
node is lost. After an open fence nothing may follow, and after a text no prose. -/
theorem readInFront_nodeLines {n : Node Generated} {ls : List (List Char)} (hnormal : n.Normal)
    (hgiven : n.Given) (hlasts : n.Lasts) (h : nodeLines n = .ok ls) (k : Nat)
    {rest : List (List Char)} (hcloses : n.Closes ∨ rest = [])
    (hidle : n.content? ≠ none →
      ∀ p ∈ (group (pieces (k + (ls.flatMap lines).length) rest)).prose, isIdle p.2 = true) :
    ReadInFront n (pieces k (ls.flatMap lines ++ rest))
      (pieces (k + (ls.flatMap lines).length) rest) := by
  cases written_of_nodeLines hgiven h with
  | @text content hformless =>
    rw [List.flatMap_singleton] at hidle ⊢
    rw [pieces_formless hformless hlasts.2 k hcloses]
    exact readInFront_text hnormal k (hidle (Option.some_ne_none _))
  | @narrated content url hformless hurl =>
    rw [flatMap_narrated hurl, List.length_cons, Nat.add_comm _ 1, ← Nat.add_assoc] at hidle ⊢
    rw [List.cons_append, (stands_narration hurl).2,
      pieces_formless hformless hlasts.2 (k + 1) hcloses]
    exact readInFront_narrated hnormal url k (k + 1) "" (hidle (Option.some_ne_none _))
  | @generated media text htext =>
    have hlength : ((fenceMark ++ (fenceName media).toList) :: lines text ++ [fenceMark]).length =
        (lines text).length + 2 := by
      simp
    rw [flatMap_fenceLines, List.append_assoc, List.singleton_append, pieces_fenceLines htext,
      hlength, ← Nat.add_assoc]
    exact readInFront_generated hnormal hlasts htext k _
  | @single _ w f _ _ hf _ hstands hnode =>
    rw [flatMap_lines (List.forall_mem_singleton.2 hstands.1), List.singleton_append, hstands.2]
    refine readInFront_form k "" ?_ ?_ fun place => hnode place k
    · cases f <;> first | rfl | cases hf
    · rintro content rfl
      cases hf

/-- Only a text without a sound begins with prose. -/
theorem prose_nodeLines {n : Node Generated} {ls : List (List Char)} (hgiven : n.Given)
    (hne : ∀ content, n ≠ .text content none) (h : nodeLines n = .ok ls) (k : Nat)
    (rest : List (List Char)) : (group (pieces k (ls.flatMap lines ++ rest))).prose = [] := by
  cases written_of_nodeLines hgiven h with
  | @text content => exact absurd rfl (hne content)
  | narrated _ hurl =>
    rw [flatMap_narrated hurl, List.cons_append, (stands_narration hurl).2]
    rfl
  | generated htext =>
    rw [flatMap_fenceLines, List.append_assoc, List.singleton_append, pieces_fenceLines htext]
    rfl
  | single _ _ _ _ hstands =>
    rw [flatMap_lines (List.forall_mem_singleton.2 hstands.1), List.singleton_append, hstands.2]
    rfl

/-! ## Nodes in a row -/

/-- What stands behind a text, nodes and then other lines, begins with no prose but that of the
other lines. -/
theorem idle_behind {n : Node Generated} {ns : List (Node Generated)}
    {lss : List (List (List Char))} (htext : n.content? ≠ none)
    (hfollow : ∀ m ∈ ns.head?, n.Follows m) (hgiven : ∀ m ∈ ns, m.Given)
    (h : ns.mapM nodeLines = .ok lss) (k : Nat) {rest : List (List Char)}
    (hidle : ∀ p ∈ (group (pieces (k + (lss.flatten.flatMap lines).length) rest)).prose,
      isIdle p.2 = true) :
    ∀ p ∈ (group (pieces k (lss.flatten.flatMap lines ++ rest))).prose, isIdle p.2 = true := by
  cases ns with
  | nil =>
    cases h
    exact hidle
  | cons m ns =>
    rw [List.mapM_cons, Except.bind_eq_ok_iff] at h
    obtain ⟨ls, hls, h⟩ := h
    obtain ⟨lss, -, h⟩ := Except.bind_eq_ok_iff.1 h
    cases h
    rw [List.flatten_cons, List.flatMap_append, List.append_assoc,
      prose_nodeLines (hgiven m List.mem_cons_self) ?_ hls]
    · exact List.forall_mem_nil _
    · -- A text behind a text has a sound.
      rintro content rfl
      have hbehind := hfollow _ rfl
      cases n with
      | text _ _ =>
        obtain ⟨url, hurl, -⟩ := hbehind
        cases hurl
      | _ => exact htext rfl

/-- Whether pieces are read as nodes and then as other pieces. -/
structure RowInFront (ns : List (Node Generated)) (ps qs : List (Nat × Piece)) : Prop where
  closed : ∀ scene, unclosed? scene ps = unclosed? scene qs
  drafts : (group ps).drafts = (group qs).drafts
  nodes : ∀ id index, (nodes id index none (group ps).allBlocks).result =
    (Script.nodes id (index + ns.length) none (group qs).allBlocks).result.map (ns ++ ·)

theorem rowInFront_nil (qs : List (Nat × Piece)) : RowInFront [] qs qs where
  closed _ := rfl
  drafts := rfl
  nodes id index := by
    rw [List.length_nil, Nat.add_zero]
    cases (Script.nodes id index none (group qs).allBlocks).result <;> rfl

theorem RowInFront.cons {n : Node Generated} {ns : List (Node Generated)}
    {ps qs rs : List (Nat × Piece)} (hn : ReadInFront n ps qs) (h : RowInFront ns qs rs) :
    RowInFront (n :: ns) ps rs where
  closed scene := (hn.closed scene).trans (h.closed scene)
  drafts := hn.drafts.trans h.drafts
  nodes id index := by
    rw [hn.nodes, h.nodes, List.length_cons, Nat.add_comm ns.length, ← Nat.add_assoc]
    cases (Script.nodes id (index + 1 + ns.length) none (group rs).allBlocks).result <;> rfl

/-- **What is written for nodes in a row is read as these nodes** in front of what follows, if
nothing of them is lost. -/
theorem rowInFront_nodeLines {ns : List (Node Generated)} {lss : List (List (List Char))}
    (hnormal : ∀ n ∈ ns, n.Normal) (hfollows : ns.IsChain Node.Follows) (hgiven : GivenNodes ns)
    (hlasts : ∀ n ∈ ns, n.Lasts) (h : ns.mapM nodeLines = .ok lss) (k : Nat)
    {rest : List (List Char)} (hcloses : rest = [] ∨ ∀ n ∈ ns, n.Closes)
    (hidle : ∀ p ∈ (group (pieces (k + (lss.flatten.flatMap lines).length) rest)).prose,
      isIdle p.2 = true) :
    RowInFront ns (pieces k (lss.flatten.flatMap lines ++ rest))
      (pieces (k + (lss.flatten.flatMap lines).length) rest) := by
  induction ns generalizing k lss with
  | nil =>
    cases h
    exact rowInFront_nil _
  | cons n ns ih =>
    rw [List.mapM_cons, Except.bind_eq_ok_iff] at h
    obtain ⟨ls, hls, h⟩ := h
    obtain ⟨lss, hlss, h⟩ := Except.bind_eq_ok_iff.1 h
    cases h
    obtain ⟨hn, hns⟩ := List.forall_mem_cons.1 hnormal
    obtain ⟨hngiven, hnsgiven⟩ := List.forall_mem_cons.1 hgiven.given
    obtain ⟨hnlasts, hnslasts⟩ := List.forall_mem_cons.1 hlasts
    obtain ⟨hfollow, hfollows⟩ := List.isChain_cons.1 hfollows
    obtain ⟨hclose, hchain⟩ := List.isChain_cons.1 hgiven.chain
    rw [List.flatten_cons, List.flatMap_append, List.length_append, ← Nat.add_assoc] at hidle ⊢
    rw [List.append_assoc]
    have hrow := ih hns hfollows ⟨hnsgiven, hchain⟩ hnslasts hlss (k + (ls.flatMap lines).length)
      (hcloses.imp_right fun h m hm => h m (List.mem_cons_of_mem n hm)) hidle
    refine .cons (readInFront_nodeLines hn hngiven hnlasts hls k ?_ fun htext =>
      idle_behind htext hfollow hnsgiven hlss _ hidle) hrow
    -- A node that leaves a fence open is the last one, and nothing follows.
    cases ns with
    | cons m ns => exact .inl (hclose m rfl)
    | nil =>
      cases hlss
      exact hcloses.symm.imp_left fun h => h n List.mem_cons_self

/-! ## Lines of one block -/

/-- A line that is one block is no header and opens no fence. -/
theorem plain_of_stands {l : List Char} {f : Form} (h : Stands l f) :
    header? l = none ∧ fenceInfo? l = none := by
  have hpieces := h.2 0 []
  rw [pieces_nil] at hpieces
  cases hheader : header? l with
  | some id =>
    rw [pieces_header hheader] at hpieces
    cases hpieces
  | none =>
    refine ⟨rfl, ?_⟩
    cases hinfo : fenceInfo? l with
    | none => rfl
    | some info =>
      by_cases hname : mediaFences.contains info = true
      · rw [pieces_unclosed hheader hinfo hname rfl] at hpieces
        cases hpieces
      · rw [pieces_plain hheader hinfo hname, throughClosing] at hpieces
        cases hpieces

end Script

end Storyline
