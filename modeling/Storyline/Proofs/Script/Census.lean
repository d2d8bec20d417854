import Storyline.Proofs.Script.Return

/-!
# Counting headers

Reading a script cannot make headers: what becomes a scene was a header, and every line of a text
that would be a header without its margin was such a line before. A written story has as many of
these lines as it has scenes and as stand in its texts, so reading the story back as the same story
leaves none of them over.

## Main definitions

* `headings`, `headingsIn`: the number of lines that are headers once they are trimmed
* `Scene.headings`, `Draft.headings`, `Grouping.headings`: the number of them that stand in the
  texts of a scene, its own header included

## Main results

* `headings_group_pieces`: grouping makes no headings
* `headings_foldlM_addScene`: neither does adding scenes, and it loses some if two have one name
* `headings_sceneLines`, `headings_intercalate`: the headings that are written for scenes
-/

namespace Storyline

open Text

namespace Script

/-- The number of lines that are headers once they are trimmed. -/
def headings (ls : List (List Char)) : Nat :=
  ls.countP fun l => (header? (trim l)).isSome

theorem headings_nil : headings [] = 0 := rfl

theorem headings_append (ls ms : List (List Char)) :
    headings (ls ++ ms) = headings ls + headings ms :=
  List.countP_append

theorem headings_cons_le (l : List Char) (ls : List (List Char)) :
    headings ls ≤ headings (l :: ls) :=
  (List.sublist_cons_self l ls).countP_le

theorem headings_eq_of_map_trim {ls ms : List (List Char)} (h : ls.map trim = ms.map trim) :
    headings ls = headings ms := by
  have hmap (ks : List (List Char)) :
      headings ks = (ks.map trim).countP fun l => (header? l).isSome := by
    rw [List.countP_map]
    rfl
  rw [hmap, hmap, h]

theorem headings_eq_zero {ls : List (List Char)} (h : ∀ l ∈ ls, header? (trim l) = none) :
    headings ls = 0 :=
  List.countP_eq_zero.2 fun l hl => by rw [h l hl]; exact Bool.false_ne_true

/-- A header is a mark, a name and blanks. -/
theorem eq_of_header? {l : List Char} {id : String} (h : header? l = some id) :
    ∃ blanks, Blank blanks ∧ l = s!"# {id}".toList ++ blanks := by
  obtain ⟨r, hr, hid⟩ := Option.bind_eq_some_iff.1 h
  dsimp only at hid
  obtain ⟨hcond, he⟩ := Option.ite_none_right_eq_some.1 hid
  rw [Bool.and_eq_true, List.all_eq_true] at hcond
  refine ⟨r.dropWhile isNameChar, fun c hc => by simp [isBlank, hcond.2 c hc], ?_⟩
  rw [eq_append_of_after? hr, ← Option.some.inj he, headerLine_eq, String.toList_ofList]
  simp

/-- A header is a header once it is trimmed. -/
theorem header?_trim {l : List Char} {id : String} (h : header? l = some id) :
    header? (trim l) = some id := by
  have hname := isName_of_header? h
  obtain ⟨blanks, hblanks, rfl⟩ := eq_of_header? h
  rw [trim_append_blank _ hblanks, (firm_headerLine hname).filled.2, header?_name hname]

theorem headings_header {l : List Char} {id : String} (h : header? l = some id)
    (ls : List (List Char)) : headings (l :: ls) = headings ls + 1 :=
  List.countP_cons_of_pos (by rw [header?_trim h]; rfl)

/-- The number of headings in the lines of texts. -/
def headingsIn (contents : List String) : Nat :=
  (contents.map fun content => headings (lines content.toList)).sum

theorem headingsIn_append (contents others : List String) :
    headingsIn (contents ++ others) = headingsIn contents + headingsIn others := by
  rw [headingsIn, List.map_append, List.sum_append]
  rfl

/-- The text of a block. -/
def Block.content? (b : Block) : Option String :=
  match b.form with
  | .text content => some content
  | _ => none

theorem Block.content?_eq_none {b : Block} (h : b.form.isText = false) : b.content? = none := by
  obtain ⟨n, f⟩ := b
  cases f <;> first | rfl | cases h

end Script

/-- The number of headings of a scene, its own header included. -/
def Scene.headings {G : Type} (s : Scene G) : Nat :=
  1 + Script.headingsIn (s.nodes.filterMap Node.content?)

namespace Script

/-- The number of headings of a draft, its own header included. -/
def Draft.headings (d : Draft) : Nat :=
  1 + headingsIn (d.blocks.filterMap Block.content?)

/-- The number of headings of a grouping. -/
def Grouping.headings (g : Grouping) : Nat :=
  Script.headings (g.prose.map (·.2)) + headingsIn (g.blocks.filterMap Block.content?) +
    (g.drafts.map Draft.headings).sum

/-! ## Grouping -/

/-- The text of prose lines has no more headings than they. -/
theorem headings_allBlocks {g : Grouping} (hbreak : ∀ p ∈ g.prose, '\n' ∉ p.2) :
    headingsIn (g.allBlocks.filterMap Block.content?) ≤
      Script.headings (g.prose.map (·.2)) + headingsIn (g.blocks.filterMap Block.content?) := by
  rw [Grouping.allBlocks, List.filterMap_append, headingsIn_append]
  refine Nat.add_le_add_right ?_ _
  cases hblock : proseBlock? g.prose with
  | none => exact Nat.zero_le _
  | some b =>
    obtain ⟨front, kept, back, content, hls, -, -, -, hform, htrim⟩ :=
      text_of_proseBlock? hbreak hblock
    have hb : headingsIn ([b].filterMap Block.content?) = Script.headings kept := by
      rw [List.filterMap_cons_some (show b.content? = some content by rw [Block.content?, hform])]
      exact headings_eq_of_map_trim htrim
    rw [hls, headings_append, headings_append]
    show headingsIn ([b].filterMap Block.content?) ≤ _
    omega

theorem headings_group_form {ps : List (Nat × Piece)} (hbreak : ∀ p ∈ (group ps).prose, '\n' ∉ p.2)
    {f : Form} (hf : f.isText = false) (n : Nat) (leftover : String) :
    (group ((n, .form f leftover) :: ps)).headings ≤ (group ps).headings := by
  have hblocks := headings_allBlocks hbreak
  have hform : group ((n, .form f leftover) :: ps) =
      { blocks := ⟨n, f⟩ :: (group ps).allBlocks, drafts := (group ps).drafts } := rfl
  rw [hform, Grouping.headings, Grouping.headings, List.map_nil, headings_nil,
    List.filterMap_cons_none (Block.content?_eq_none hf)]
  dsimp only
  omega

theorem headings_group_header {ps : List (Nat × Piece)}
    (hbreak : ∀ p ∈ (group ps).prose, '\n' ∉ p.2) (n : Nat) (id : String) :
    (group ((n, .header id) :: ps)).headings ≤ (group ps).headings + 1 := by
  have hblocks := headings_allBlocks hbreak
  have hheader : group ((n, .header id) :: ps) =
      { drafts := ⟨id, n, (group ps).allBlocks⟩ :: (group ps).drafts } := rfl
  have hnone : headingsIn (([] : List Block).filterMap Block.content?) = 0 := rfl
  rw [hheader, Grouping.headings, Grouping.headings, List.map_nil, headings_nil, List.map_cons,
    List.sum_cons, Draft.headings, hnone]
  dsimp only
  omega

theorem headings_group_prose (n : Nat) (ls : List (List Char)) (ps : List (Nat × Piece)) :
    (group (prosePieces n ls ++ ps)).headings = Script.headings ls + (group ps).headings := by
  rw [group_prosePieces, Grouping.headings, Grouping.headings, List.map_append, map_snd_numbered,
    headings_append]
  dsimp only
  omega

/-- **Grouping makes no headings.** -/
theorem headings_group_pieces (n : Nat) (ls : List (List Char)) (hbreak : ∀ l ∈ ls, '\n' ∉ l) :
    (group (pieces n ls)).headings ≤ Script.headings ls := by
  have hprose (n : Nat) {ls : List (List Char)} (hls : ∀ l ∈ ls, '\n' ∉ l) :=
    (given_group_pieces n ls hls).breaks
  induction n, ls using pieces.induct with
  | case1 n =>
    rw [pieces_nil]
    exact le_rfl
  | case2 n l ls id hid ih =>
    obtain ⟨-, hls⟩ := List.forall_mem_cons.1 hbreak
    rw [pieces_header hid, headings_header hid]
    exact (headings_group_header (hprose _ hls) n id).trans (Nat.add_le_add_right (ih hls) 1)
  | case3 n l ls hid hinfo ih =>
    obtain ⟨-, hls⟩ := List.forall_mem_cons.1 hbreak
    rw [pieces_line hid hinfo]
    rcases linePiece_eq l with ⟨hpiece, -⟩ | ⟨f, leftover, hpiece, hform⟩
    · rw [hpiece]
      show _ ≤ headings ([l] ++ ls)
      rw [headings_append]
      exact (headings_group_prose n [l] _).le.trans (Nat.add_le_add_left (ih hls) _)
    · rw [hpiece]
      exact (headings_group_form (hprose _ hls) (isText_of_lineForm? hform) n leftover).trans
        ((ih hls).trans (headings_cons_le l ls))
  | case4 n l ls hid name hinfo hname hclosing =>
    rw [pieces_unclosed hid hinfo hname hclosing]
    exact Nat.zero_le _
  | case5 n l ls hid name hinfo hname content rest hclosing ih =>
    rw [pieces_fence hid hinfo hname hclosing]
    obtain ⟨closing, rfl, -⟩ := closing?_eq_some hclosing
    have hrest : ∀ k ∈ rest, '\n' ∉ k := fun k hk => hbreak k (by simp [hk])
    refine (headings_group_form (hprose _ hrest) rfl n "").trans ((ih hrest).trans ?_)
    show _ ≤ headings (l :: content ++ closing :: rest)
    rw [headings_append]
    exact (headings_cons_le closing rest).trans (Nat.le_add_left _ _)
  | case6 n l ls hid info hinfo hname inside ih =>
    have hsplit : l :: ls = l :: inside ++ (throughClosing ls).2 := by
      rw [List.cons_append, throughClosing_append]
    rw [hsplit] at hbreak
    have hrest := (List.forall_mem_append.1 hbreak).2
    rw [pieces_plain hid hinfo hname, map_zipIdx_prose, hsplit, headings_append]
    exact (headings_group_prose n (l :: inside) _).le.trans (Nat.add_le_add_left (ih hrest) _)

/-! ## Nodes and scenes -/

/-- The texts of the nodes of blocks are those of the blocks. -/
theorem contents_nodes (id : String) (index : Nat) (narration : Option String) (bs : List Block) :
    (nodes id index narration bs).result.Gives fun ns =>
      ns.filterMap Node.content? = bs.filterMap Block.content? := by
  induction bs generalizing index narration with
  | nil =>
    rw [result_nodes_nil]
    exact Except.gives_ok rfl
  | cons b bs ih =>
    rcases b.cases_narration with ⟨url, hform, -⟩ | ⟨hnone, ⟨content, hform⟩ | htext⟩
    · have hb : b.content? = none := by rw [Block.content?, hform]
      rw [result_nodes_narration hform, List.filterMap_cons_none hb]
      exact ih index (some url)
    · have hb : b.content? = some content := by rw [Block.content?, hform]
      rw [result_nodes_text hform, List.filterMap_cons_some hb]
      exact (ih (index + 1) none).map fun ns hns => by rw [← hns]; rfl
    · have hb : b.content? = none := by
        rw [Block.content?]
        split
        · exact absurd ‹_› (htext _)
        · rfl
      rw [result_nodes_other hnone htext, List.filterMap_cons_none hb]
      refine (gives_becomes _ b).bind fun n hn => ?_
      exact (ih (index + 1) none).map fun ns hns => by
        rw [List.filterMap_cons_none (hn.content?_eq_none htext), hns]

/-- The scene of a draft has its texts. -/
theorem contents_scene {d : Draft} {s : Scene Generated} (h : (scene d).result = .ok s) :
    s.nodes.filterMap Node.content? = d.blocks.filterMap Block.content? := by
  rw [result_scene] at h
  obtain ⟨ns, hns, rfl⟩ := Except.map_eq_ok_iff.1 h
  exact contents_nodes d.id 0 none d.blocks ns hns

theorem headings_scene {d : Draft} {s : Scene Generated} (h : (scene d).result = .ok s) :
    s.headings = d.headings := by
  rw [Scene.headings, Draft.headings, contents_scene h]

end Script

/-- A scene that is put under a name joins the others, or it takes the place of one. -/
theorem Mapping.headings_insert {G : Type} (scenes : Mapping (Scene G)) (id : String)
    (s : Scene G) : (scenes.insert id s).values = scenes.values ++ [s] ∨
      ((scenes.insert id s).values.map Scene.headings).sum <
        (scenes.values.map Scene.headings).sum + s.headings := by
  rw [Mapping.values, Mapping.values, Mapping.toList_insert]
  induction scenes.toList with
  | nil => exact .inl rfl
  | cons p ps ih =>
    by_cases hp : p.1 = id
    · have hpos : 0 < p.2.headings := Nat.add_pos_left Nat.one_pos _
      rw [insertPair, if_pos hp]
      refine .inr ?_
      simp only [List.map_cons, List.sum_cons]
      omega
    · rw [insertPair, if_neg hp]
      refine ih.imp (fun h => by rw [List.map_cons, h]; rfl) fun h => ?_
      simp only [List.map_cons, List.sum_cons] at h ⊢
      omega

namespace Script

/-- **Adding scenes makes no headings**, and it loses some if two scenes have one name. -/
theorem headings_foldlM_addScene {ds : List Draft} {scenes scenes' : Mapping (Scene Generated)}
    (h : (ds.foldlM addScene scenes).result = .ok scenes') :
    (scenes'.values.map Scene.headings).sum ≤
        (scenes.values.map Scene.headings).sum + (ds.map Draft.headings).sum ∧
      ((scenes'.values.map Scene.headings).sum =
          (scenes.values.map Scene.headings).sum + (ds.map Draft.headings).sum →
        ∃ ss, List.Forall₂ (fun d s => (scene d).result = .ok s) ds ss ∧
          scenes'.values = scenes.values ++ ss) := by
  induction ds generalizing scenes with
  | nil =>
    cases h
    exact ⟨le_rfl, fun _ => ⟨[], .nil, (List.append_nil _).symm⟩⟩
  | cons d ds ih =>
    rw [List.foldlM_cons, Logged.result_bind, Except.bind_eq_ok_iff] at h
    obtain ⟨next, hnext, h⟩ := h
    rw [result_addScene] at hnext
    obtain ⟨s, hs, rfl⟩ := Except.map_eq_ok_iff.1 hnext
    obtain ⟨hle, heq⟩ := ih h
    rw [List.map_cons, List.sum_cons, ← headings_scene hs]
    rcases scenes.headings_insert d.id s with hjoins | hreplaces
    · rw [hjoins, List.map_append, List.sum_append, List.map_singleton, List.sum_singleton]
        at hle heq
      refine ⟨by omega, fun hsum => ?_⟩
      obtain ⟨ss, hss, hvalues⟩ := heq (by omega)
      exact ⟨s :: ss, .cons hs hss, by rw [hvalues, List.append_assoc]; rfl⟩
    · exact ⟨by omega, fun hsum => by omega⟩

/-! ## Written lines -/

/-- A row of a mapping is no header, not even without its margin. -/
theorem header?_trim_of_row {l : List Char} (h : Yaml.Row l) : header? (trim l) = none := by
  refine Option.eq_none_iff_forall_not_mem.2 fun id hid => ?_
  have hname := isName_of_header? hid
  obtain ⟨blanks, hblanks, hl⟩ := eq_of_header? hid
  rw [headerLine_eq] at hl
  rcases h.trimmed with hcolon | ⟨c, t, hc, hprefix⟩
  · rw [hl] at hcolon
    have hcases : ':' ∈ id.toList ∨ ':' ∈ blanks := by simpa using hcolon
    rcases hcases with hmem | hmem
    · exact absurd (hname.2 _ hmem) (by decide)
    · exact absurd (hblanks _ hmem) (by decide)
  · rw [hl, List.cons_append, List.cons_prefix_cons] at hprefix
    rcases hc with rfl | rfl <;> exact absurd hprefix.1 (by decide)

theorem headings_between : headings between = 0 := by decide

/-- The headings that are written for a node. -/
theorem headings_nodeLines {n : Node Generated} {ls : List (List Char)} (hgiven : n.Given)
    (h : nodeLines n = .ok ls) :
    headings (ls.flatMap lines) = headingsIn n.content?.toList := by
  have hstands {w : List Char} {f : Form} (hfilled : Filled w) (hw : Stands w f) :
      headings [w] = 0 := by
    refine headings_eq_zero (List.forall_mem_singleton.2 ?_)
    rw [hfilled.2, (plain_of_stands hw).1]
  cases written_of_nodeLines hgiven h with
  | text =>
    rw [List.flatMap_singleton]
    rfl
  | narrated _ hurl =>
    rw [flatMap_narrated hurl, ← List.singleton_append, headings_append,
      hstands (firm_narrationLine hurl).filled (stands_narration hurl), Nat.zero_add]
    rfl
  | @generated media text htext =>
    have hstarts := Yaml.starts_of_renderBody (mediaFields_ne_nil media) (data_mediaFields media)
      htext
    have hopening : ∀ fence ∈ mediaFences, header? (trim (fenceMark ++ fence.toList)) = none := by
      decide
    rw [flatMap_fenceLines]
    refine headings_eq_zero ?_
    rw [List.cons_append, List.forall_mem_cons, List.forall_mem_append]
    exact ⟨hopening _ (fenceName_mem media),
      fun l hl => header?_trim_of_row (hstarts.forall_row l hl), by decide⟩
  | single hcontent _ _ hfilled hw =>
    rw [flatMap_lines (List.forall_mem_singleton.2 hw.1), hstands hfilled hw, hcontent]
    rfl

theorem headings_nodesLines {ns : List (Node Generated)} {lss : List (List (List Char))}
    (hgiven : ∀ n ∈ ns, n.Given) (h : ns.mapM nodeLines = .ok lss) :
    headings (lss.flatten.flatMap lines) = headingsIn (ns.filterMap Node.content?) := by
  rw [Except.mapM_eq_ok_iff] at h
  induction h with
  | nil => rfl
  | @cons n ls ns lss hls _ ih =>
    obtain ⟨hn, hns⟩ := List.forall_mem_cons.1 hgiven
    rw [List.flatten_cons, List.flatMap_append, headings_append, headings_nodeLines hn hls, ih hns,
      ← headingsIn_append]
    cases hcontent : n.content? with
    | none => rw [List.filterMap_cons_none hcontent]; rfl
    | some content => rw [List.filterMap_cons_some hcontent]; rfl

/-- The headings that are written for a scene. -/
theorem headings_sceneLines {s : Scene Generated} {ls : List (List Char)} (hgiven : s.Given)
    (h : sceneLines s = .ok ls) : headings (ls.flatMap lines) = s.headings := by
  obtain ⟨nls, hnls, h⟩ := Except.bind_eq_ok_iff.1 h
  cases h
  rw [List.flatMap_cons, lines_eq_singleton (unbroken_headerLine hgiven.name),
    List.singleton_append, headings_header (header?_name hgiven.name),
    headings_nodesLines hgiven.nodes.given hnls, Nat.add_comm]
  rfl

/-- The headings that are written for scenes. -/
theorem headings_intercalate {ss : List (Scene Generated)} {lss : List (List (List Char))}
    (hgiven : ∀ s ∈ ss, s.Given) (h : ss.mapM sceneLines = .ok lss) :
    headings (List.intercalate between (lss.map (List.flatMap lines))) =
      (ss.map Scene.headings).sum := by
  rw [Except.mapM_eq_ok_iff] at h
  induction h with
  | nil => rfl
  | @cons s ls ss lss hls hlss ih =>
    obtain ⟨hs, hss⟩ := List.forall_mem_cons.1 hgiven
    have hhead := headings_sceneLines hs hls
    have ih := ih hss
    rw [List.map_cons, List.map_cons, List.sum_cons, ← ih, ← hhead]
    cases lss with
    | nil => rw [List.map_nil, List.intercalate_singleton, List.intercalate_nil, headings_nil,
      Nat.add_zero]
    | cons ms lss =>
      rw [List.map_cons, List.intercalate_cons_cons, headings_append, headings_append,
        headings_between, Nat.add_zero]

end Script

end Storyline
