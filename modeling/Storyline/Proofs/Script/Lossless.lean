import Storyline.Proofs.Script.Kept
import Storyline.Proofs.Script.Retold

/-!
# Stories without losses

The script that is written for a story is read as the same story exactly if nothing of the story is
lost. What is lost can be told from the lines: a text in which a header stands ends there, a text
with an open fence goes on through the lines that follow, and in both cases it has not as many lines
as before.

## Main definitions

* `busy`: the number of lines that are neither blank nor rules

## Main results

* `headers_of_text`, `closes_of_text`: what cannot stand in a text that is read again as itself
* `lasts_of_nodeLines`: a node that is read again as itself lasts
* `lasts_of_nodes`, `lasts_of_drafts`: so do nodes in a row and scenes
* `exists_parse_iff_lasts`: exactly the stories that last are read again as themselves
-/

namespace Storyline.Script

open Text

/-! ## Lines that are not idle -/

/-- The number of lines that are neither blank nor rules. -/
def busy (ls : List (List Char)) : Nat :=
  ls.countP fun l => !isIdle l

theorem busy_append (ls ms : List (List Char)) : busy (ls ++ ms) = busy ls + busy ms :=
  List.countP_append

theorem busy_eq_of_map_trim {ls ms : List (List Char)} (h : ls.map trim = ms.map trim) :
    busy ls = busy ms := by
  have hmap (ks : List (List Char)) :
      busy ks = (ks.map trim).countP fun l => !(l.isEmpty || l == rule) := by
    rw [List.countP_map]
    rfl
  rw [hmap, hmap, h]

theorem busy_eq_zero_iff {ls : List (List Char)} :
    busy ls = 0 ↔ ∀ l ∈ ls, isIdle l = true := by
  rw [busy, List.countP_eq_zero]
  simp

theorem busy_pos {ls : List (List Char)} {l : List Char} (hl : l ∈ ls) (h : isIdle l = false) :
    0 < busy ls :=
  List.countP_pos_iff.2 ⟨l, hl, by rw [h]; rfl⟩

theorem not_idle_of_header {l : List Char} {id : String} (h : header? l = some id) :
    isIdle l = false := by
  rw [Bool.eq_false_iff]
  intro hidle
  rw [header?_of_idle hidle] at h
  cases h

/-- A fence of prose has lines that are not idle if any line behind its mark is not. -/
theorem busy_throughClosing {ls : List (List Char)} (h : 0 < busy ls) :
    0 < busy (throughClosing ls).1 := by
  induction ls with
  | nil => exact h
  | cons l ls ih =>
    rw [throughClosing]
    by_cases hl : closesFence l = true
    · rw [if_pos hl]
      refine busy_pos List.mem_cons_self (Bool.eq_false_iff.2 fun hidle => ?_)
      rw [Region.closesFence_of_idle hidle] at hl
      cases hl
    · rw [if_neg hl]
      show 0 < busy ([l] ++ (throughClosing ls).1)
      change 0 < busy ([l] ++ ls) at h
      rw [busy_append] at h ⊢
      by_cases hls : 0 < busy ls
      · exact Nat.add_pos_right _ (ih hls)
      · omega

theorem busy_passage {content : String} (h : Passage content) :
    0 < busy (lines content.toList) := by
  obtain ⟨l, ls, hls⟩ := List.exists_cons_of_ne_nil (lines_ne_nil content.toList)
  have hl := (not_idle_of_passage h).1 l (by rw [hls]; rfl)
  exact busy_pos (by rw [hls]; exact List.mem_cons_self) hl

/-- The first text of blocks has as many lines that are not idle as the prose in front of them. -/
theorem busy_of_first {g : Grouping} (hbreak : ∀ p ∈ g.prose, '\n' ∉ p.2)
    (hfirst : 0 < busy (g.prose.map (·.2)) ∨ g.blocks = []) {id : String} {index : Nat}
    {waiting narration : Option String} {content : String} {ns : List (Node Generated)}
    (h : (nodes id index waiting g.allBlocks).result = .ok (.text content narration :: ns)) :
    busy (lines content.toList) = busy (g.prose.map (·.2)) := by
  rw [Grouping.allBlocks] at h
  cases hblock : proseBlock? g.prose with
  | none =>
    have hidle : busy (g.prose.map (·.2)) = 0 := busy_eq_zero_iff.2 fun l hl => by
      obtain ⟨p, hp, rfl⟩ := List.mem_map.1 hl
      exact proseBlock?_eq_none_iff.1 hblock p hp
    have hnone := hfirst.resolve_left (by omega)
    rw [hblock, hnone] at h
    rw [Option.toList_none, List.nil_append, result_nodes_nil] at h
    cases h
  | some b =>
    obtain ⟨front, kept, back, content', hls, hfront, hback, -, hform, htrim⟩ :=
      text_of_proseBlock? hbreak hblock
    rw [hblock, Option.toList_some, List.singleton_append, result_nodes_text hform] at h
    obtain ⟨ns', -, he⟩ := Except.map_eq_ok_iff.1 h
    obtain ⟨rfl, -⟩ := Node.text.inj (List.cons.inj he).1
    rw [busy_eq_of_map_trim htrim, hls, busy_append, busy_append, busy_eq_zero_iff.2 hfront,
      busy_eq_zero_iff.2 hback, Nat.zero_add, Nat.add_zero]

/-! ## Headers and fences in a text -/

namespace Region

/-- Where the first header outside every fence stands. -/
theorem exists_header {r : Region} {n : Nat} {ls : List (List Char)} (h : r.headers n ls ≠ []) :
    ∃ front l back id, ls = front ++ l :: back ∧ r.headers n front = [] ∧ r.after front ≠ fence ∧
      header? l = some id := by
  induction ls generalizing r n with
  | nil => exact absurd rfl h
  | cons l ls ih =>
    cases hnew : r.newScene? l with
    | some id =>
      rw [newScene?] at hnew
      obtain ⟨hr, hid⟩ := Option.ite_none_left_eq_some.1 hnew
      exact ⟨[], l, ls, id, rfl, rfl, hr, hid⟩
    | none =>
      rw [headers, hnew] at h
      obtain ⟨front, m, back, id, rfl, hfront, hafter, hid⟩ := ih h
      refine ⟨l :: front, m, back, id, rfl, ?_, hafter, hid⟩
      rw [headers, hnew, hfront]
      rfl

theorem headers_throughClosing (n : Nat) (ls : List (List Char)) :
    fence.headers n (throughClosing ls).1 = [] := by
  induction ls generalizing n with
  | nil => rfl
  | cons l ls ih =>
    rw [throughClosing]
    by_cases hl : closesFence l = true
    · rw [if_pos hl]
      rfl
    · rw [if_neg hl, headers, next, if_neg hl, ih]
      rfl

end Region

theorem breaks_text {content : String} {rest : List (List Char)} (hbreak : ∀ l ∈ rest, '\n' ∉ l)
    (k : Nat) :
    ∀ p ∈ (group (pieces k (lines content.toList ++ rest))).prose, '\n' ∉ p.2 :=
  (given_group_pieces k _ (List.forall_mem_append.2
    ⟨fun _ hl => not_mem_of_mem_lines hl, hbreak⟩)).breaks

section

variable {content : String} {waiting narration : Option String} {rest : List (List Char)}
  {id : String} {index k : Nat} {ns : List (Node Generated)}

/-- A text that is read again as itself has no header outside its fences, since it would end in
front of the header. -/
theorem headers_of_text (hformless : Region.scene.Formless (lines content.toList))
    (hbreak : ∀ l ∈ rest, '\n' ∉ l)
    (h : (nodes id index waiting
      (group (pieces k (lines content.toList ++ rest))).allBlocks).result =
        .ok (.text content narration :: ns)) :
    Region.scene.headers 0 (lines content.toList) = [] := by
  by_contra hheaders
  obtain ⟨front, l, back, id', hcontent, hfront, hafter, hid⟩ := Region.exists_header hheaders
  rw [hcontent, Region.formless_append] at hformless
  have hpieces := @pieces_formless _ hformless.1 hfront k (l :: (back ++ rest)) (.inl hafter)
  rw [pieces_header hid] at hpieces
  have hgroup : (group (pieces k (lines content.toList ++ rest))).prose = numbered k front ∧
      (group (pieces k (lines content.toList ++ rest))).blocks = [] := by
    rw [hcontent, List.append_assoc, List.cons_append, hpieces, group_prosePieces]
    exact ⟨List.append_nil _, rfl⟩
  have hbusy := busy_of_first (breaks_text hbreak k) (.inr hgroup.2) h
  rw [hgroup.1, map_snd_numbered, hcontent, busy_append] at hbusy
  have hpos := @busy_pos (l :: back) l List.mem_cons_self (not_idle_of_header hid)
  omega

/-- If a text that is read again as itself leaves a fence open, nothing stands behind it, since it
would go on through the fence. -/
theorem closes_of_text (hpassage : Passage content)
    (hformless : Region.scene.Formless (lines content.toList)) (hbreak : ∀ l ∈ rest, '\n' ∉ l)
    (hrest : Region.scene.after (lines content.toList) ≠ .fence ∨ rest = [] ∨ 0 < busy rest)
    (hheaders : Region.scene.headers 0 (lines content.toList) = [])
    (h : (nodes id index waiting
      (group (pieces k (lines content.toList ++ rest))).allBlocks).result =
        .ok (.text content narration :: ns)) :
    Region.scene.after (lines content.toList) ≠ .fence ∨ rest = [] := by
  by_contra hopen
  rw [not_or, not_not] at hopen
  have hpos := (hrest.resolve_left (not_not.2 hopen.1)).resolve_left hopen.2
  -- The fence that is left open goes on to a line that closes it, or to the end.
  obtain ⟨hfence, hafter⟩ := after_throughClosing_cases rest
  have hformless : Region.scene.Formless (lines content.toList ++ (throughClosing rest).1) :=
    Region.formless_append.2 ⟨hformless, by rwa [hopen.1]⟩
  have hheaders :
      Region.scene.headers 0 (lines content.toList ++ (throughClosing rest).1) = [] := by
    rw [Region.headers_append, hheaders, hopen.1, Region.headers_throughClosing]
    rfl
  have hcloses : Region.scene.after (lines content.toList ++ (throughClosing rest).1) ≠ .fence ∨
      (throughClosing rest).2 = [] := by
    rw [Region.after_append, hopen.1]
    exact hafter.imp (fun hscene => by rw [hscene]; decide) And.right
  have hpieces := pieces_formless hformless hheaders k hcloses
  rw [List.append_assoc, throughClosing_append] at hpieces
  have hprose : busy (lines content.toList) + busy (throughClosing rest).1 ≤
      busy ((group (pieces k (lines content.toList ++ rest))).prose.map (·.2)) := by
    rw [hpieces, group_prosePieces, List.map_append, map_snd_numbered, busy_append, busy_append]
    exact Nat.le_add_right _ _
  have hcontent := busy_passage hpassage
  have hbusy := busy_of_first (breaks_text hbreak k) (.inl (by omega)) h
  have hinside := busy_throughClosing hpos
  omega

end

/-! ## Nodes -/

/-- Generated media that are read again from their fence as themselves last. -/
theorem lasts_of_generated {media : Generated} (hnormal : media.Normal) {text : List Char}
    (htext : Yaml.renderBody ["characters"] (asEntries (mediaFields media)) = .ok text)
    {id : String} {index k : Nat} {bs : List Block} {ns : List (Node Generated)}
    (h : (nodes id index none (⟨k, .fence (fenceName media) (String.ofList text)⟩ :: bs)).result =
      .ok (.generated media :: ns)) : Yaml.Lasting (asEntries (mediaFields media)) := by
  rw [result_nodes_other rfl fun _ he => by cases he] at h
  obtain ⟨n, hn, h⟩ := Except.bind_eq_ok_iff.1 h
  obtain ⟨_, -, he⟩ := Except.map_eq_ok_iff.1 h
  obtain rfl := (List.cons.inj he).1
  obtain ⟨entries, hload, hn⟩ := Except.bind_eq_ok_iff.1 hn
  obtain ⟨media', hread, hn⟩ := Except.bind_eq_ok_iff.1 hn
  cases hn
  exact lasting_mediaFields hnormal htext hload hread

/-- **A node that is read again as itself lasts**, and if it leaves a fence open, nothing stands
behind it. -/
theorem lasts_of_nodeLines {n : Node Generated} {ls : List (List Char)} (hnormal : n.Normal)
    (hgiven : n.Given)
    (hkept : ∀ content ∈ n.content?, normalizeBreaks content.toList = content.toList)
    (h : nodeLines n = .ok ls) {rest : List (List Char)} (hbreak : ∀ l ∈ rest, '\n' ∉ l)
    (hrest : n.Closes ∨ rest = [] ∨ 0 < busy rest) {id : String} {index k : Nat}
    {ns : List (Node Generated)}
    (hread : (nodes id index none (group (pieces k (ls.flatMap lines ++ rest))).allBlocks).result =
      .ok (n :: ns)) : n.Lasts ∧ (n.Closes ∨ rest = []) := by
  cases written_of_nodeLines hgiven h with
  | @text content hformless =>
    rw [List.flatMap_singleton] at hread
    have hheaders := headers_of_text hformless hbreak hread
    exact ⟨⟨hkept content rfl, hheaders⟩,
      closes_of_text hnormal hformless hbreak hrest hheaders hread⟩
  | @narrated content url hformless hurl =>
    rw [flatMap_narrated hurl, List.cons_append, (stands_narration hurl).2] at hread
    change (nodes id index none (⟨k, .narration url⟩ :: (group _).allBlocks)).result = _ at hread
    rw [result_nodes_narration rfl] at hread
    have hheaders := headers_of_text hformless hbreak hread
    exact ⟨⟨hkept content rfl, hheaders⟩,
      closes_of_text hnormal hformless hbreak hrest hheaders hread⟩
  | generated htext =>
    rw [flatMap_fenceLines, List.append_assoc, List.singleton_append, pieces_fenceLines htext]
      at hread
    exact ⟨lasts_of_generated hnormal htext hread, .inl trivial⟩
  | single hcontent hlasts => exact ⟨hlasts, .inl (closes_of_content? hcontent)⟩

/-- **Nodes in a row that are read again as themselves last**, and if one of them leaves a fence
open, nothing stands behind them. -/
theorem lasts_of_nodes {ns : List (Node Generated)} {lss : List (List (List Char))}
    (hnormal : ∀ n ∈ ns, n.Normal) (hfollows : ns.IsChain Node.Follows) (hgiven : GivenNodes ns)
    (hkept : ∀ n ∈ ns, ∀ content ∈ n.content?, normalizeBreaks content.toList = content.toList)
    (h : ns.mapM nodeLines = .ok lss) {rest : List (List Char)} (hbreak : ∀ l ∈ rest, '\n' ∉ l)
    (hrest : rest = [] ∨ 0 < busy rest)
    (hidle : ∀ j, ∀ p ∈ (group (pieces j rest)).prose, isIdle p.2 = true) {id : String}
    {index k : Nat} (hread : (nodes id index none
      (group (pieces k (lss.flatten.flatMap lines ++ rest))).allBlocks).result = .ok ns) :
    (∀ n ∈ ns, n.Lasts) ∧ (rest = [] ∨ ∀ n ∈ ns, n.Closes) := by
  induction ns generalizing lss index k with
  | nil => exact ⟨List.forall_mem_nil _, .inr (List.forall_mem_nil _)⟩
  | cons n ns ih =>
    rw [List.mapM_cons, Except.bind_eq_ok_iff] at h
    obtain ⟨ls, hls, h⟩ := h
    obtain ⟨lss, hlss, h⟩ := Except.bind_eq_ok_iff.1 h
    cases h
    obtain ⟨hn, hns⟩ := List.forall_mem_cons.1 hnormal
    obtain ⟨hngiven, hnsgiven⟩ := List.forall_mem_cons.1 hgiven.given
    obtain ⟨hnkept, hnskept⟩ := List.forall_mem_cons.1 hkept
    obtain ⟨hfollow, hfollows⟩ := List.isChain_cons.1 hfollows
    obtain ⟨hclose, hchain⟩ := List.isChain_cons.1 hgiven.chain
    rw [List.flatten_cons, List.flatMap_append, List.append_assoc] at hread
    have hbehind : ∀ l ∈ lss.flatten.flatMap lines ++ rest, '\n' ∉ l :=
      List.forall_mem_append.2 ⟨unbroken_flatMap_lines _, hbreak⟩
    -- A node that leaves a fence open is the last one.
    have hopen : n.Closes ∨ lss.flatten.flatMap lines ++ rest = [] ∨
        0 < busy (lss.flatten.flatMap lines ++ rest) := by
      cases ns with
      | cons m ns => exact .inl (hclose m rfl)
      | nil =>
        cases hlss
        exact .inr hrest
    obtain ⟨hlasts, hcloses⟩ := lasts_of_nodeLines hn hngiven hnkept hls hbehind hopen hread
    have hfront := readInFront_nodeLines hn hngiven hlasts hls k hcloses fun htext =>
      idle_behind htext hfollow hnsgiven hlss _ (hidle _)
    rw [hfront.nodes] at hread
    obtain ⟨ns', hreadns, he⟩ := Except.map_eq_ok_iff.1 hread
    obtain rfl := (List.cons.inj he).2
    obtain ⟨hnslasts, hnscloses⟩ := ih hns hfollows ⟨hnsgiven, hchain⟩ hnskept hlss hreadns
    refine ⟨List.forall_mem_cons.2 ⟨hlasts, hnslasts⟩, ?_⟩
    rcases hcloses with hcloses | hnone
    · exact hnscloses.imp_right fun hns => List.forall_mem_cons.2 ⟨hcloses, hns⟩
    · exact .inl (List.append_eq_nil_iff.1 hnone).2

/-! ## Scenes -/

/-- A scene that is read again as itself lasts, and what stands behind it gives the scenes
behind. -/
theorem lasts_of_scene {s : Scene Generated} {ss : List (Scene Generated)} {ls : List (List Char)}
    (hgiven : s.Given)
    (hkept : ∀ n ∈ s.nodes, ∀ content ∈ n.content?,
      normalizeBreaks content.toList = content.toList)
    (h : sceneLines s = .ok ls) {rest : List (List Char)} (hbreak : ∀ l ∈ rest, '\n' ∉ l)
    (hrest : rest = [] ∨ 0 < busy rest)
    (hidle : ∀ j, ∀ p ∈ (group (pieces j rest)).prose, isIdle p.2 = true) {k : Nat}
    (hread : List.Forall₂ (fun d s => (scene d).result = .ok s)
      (group (pieces k (ls.flatMap lines ++ rest))).drafts (s :: ss)) :
    (∀ n ∈ s.nodes, n.Lasts) ∧ (rest = [] ∨ ∀ n ∈ s.nodes, n.Closes) ∧
      ∃ j, List.Forall₂ (fun d s => (scene d).result = .ok s)
        (group (pieces j rest)).drafts ss := by
  obtain ⟨nls, hnls, h⟩ := Except.bind_eq_ok_iff.1 h
  cases h
  rw [List.flatMap_cons, lines_eq_singleton (unbroken_headerLine hgiven.name), List.append_assoc,
    List.singleton_append, pieces_header (header?_name hgiven.name)] at hread
  obtain ⟨hscene, htail⟩ := List.forall₂_cons.1 hread
  rw [result_scene] at hscene
  obtain ⟨ns, hns, hscene⟩ := Except.map_eq_ok_iff.1 hscene
  obtain rfl : ns = s.nodes := congrArg Scene.nodes hscene
  obtain ⟨hlasts, hcloses⟩ := lasts_of_nodes hgiven.normal.nodes hgiven.normal.chain hgiven.nodes
    hkept hnls hbreak hrest hidle hns
  have hrow := rowInFront_nodeLines hgiven.normal.nodes hgiven.normal.chain hgiven.nodes hlasts hnls
    (k + 1) hcloses (hidle _)
  change List.Forall₂ _ (group (pieces (k + 1) (nls.flatten.flatMap lines ++ rest))).drafts ss
    at htail
  rw [hrow.drafts] at htail
  exact ⟨hlasts, hcloses, _, htail⟩

/-- Of the lines between scenes nothing is read. -/
theorem group_between {ls : List (List Char)} (h : ∀ l ∈ ls.head?, (header? l).isSome = true)
    (k : Nat) : (∀ p ∈ (group (pieces k (between ++ ls))).prose, isIdle p.2 = true) ∧
      (group (pieces k (between ++ ls))).drafts = (group (pieces (k + 3) ls)).drafts := by
  have hbetween : ∀ p ∈ numbered k between, isIdle p.2 = true := by
    intro p hp
    have hmem : p.2 ∈ between := by
      rw [← map_snd_numbered k between]
      exact List.mem_map_of_mem hp
    exact (by decide : ∀ l ∈ between, isIdle l = true) _ hmem
  have hblocks := List.append_eq_nil_iff.1 (group_pieces_of_header (k + 3) h)
  rw [pieces_between, group_prosePieces]
  refine ⟨List.forall_mem_append.2 ⟨hbetween, proseBlock?_eq_none_iff.1 ?_⟩, rfl⟩
  exact Option.toList_eq_nil_iff.1 hblocks.1

theorem busy_between {ls : List (List Char)} (h : ∀ l ∈ ls.head?, (header? l).isSome = true)
    (hne : ls ≠ []) : 0 < busy (between ++ ls) := by
  obtain ⟨l, ls, rfl⟩ := List.exists_cons_of_ne_nil hne
  obtain ⟨id, hid⟩ := Option.isSome_iff_exists.1 (h l rfl)
  exact busy_pos (List.mem_append_right _ List.mem_cons_self) (not_idle_of_header hid)

theorem intercalate_lines_ne_nil {s : Scene Generated} {ls : List (List Char)}
    {lss : List (List (List Char))} (h : sceneLines s = .ok ls) :
    List.intercalate between ((ls :: lss).map (List.flatMap lines)) ≠ [] := by
  obtain ⟨nls, -, h⟩ := Except.bind_eq_ok_iff.1 h
  cases h
  refine intercalate_ne_nil ?_
  rw [List.flatMap_cons]
  exact List.append_ne_nil_of_left_ne_nil (lines_ne_nil _) _

/-- **Scenes that are read again one by one last**, and only in the last of them a fence is left
open. -/
theorem lasts_of_drafts {ss : List (Scene Generated)} {lss : List (List (List Char))}
    (hgiven : ∀ s ∈ ss, s.Given)
    (hkept : ∀ s ∈ ss, ∀ n ∈ s.nodes, ∀ content ∈ n.content?,
      normalizeBreaks content.toList = content.toList)
    (h : ss.mapM sceneLines = .ok lss) {k : Nat}
    (hread : List.Forall₂ (fun d s => (scene d).result = .ok s)
      (group (pieces k (List.intercalate between (lss.map (List.flatMap lines))))).drafts ss) :
    (∀ s ∈ ss, ∀ n ∈ s.nodes, n.Lasts) ∧ ∀ s ∈ ss.dropLast, ∀ n ∈ s.nodes, n.Closes := by
  rw [Except.mapM_eq_ok_iff] at h
  induction h generalizing k with
  | nil => exact ⟨List.forall_mem_nil _, List.forall_mem_nil _⟩
  | @cons s ls ss lss hls hlss ih =>
    obtain ⟨hs, hss⟩ := List.forall_mem_cons.1 hgiven
    obtain ⟨hskept, hsskept⟩ := List.forall_mem_cons.1 hkept
    have hhead := header?_of_mem_head? hss (Except.mapM_eq_ok_iff.2 hlss)
    have hbreak : ∀ l ∈ between ++ List.intercalate between (lss.map (List.flatMap lines)),
        '\n' ∉ l := by
      rw [← flatMap_lines_intercalate]
      exact List.forall_mem_append.2 ⟨by decide, unbroken_flatMap_lines _⟩
    cases hlss with
    | nil =>
      rw [List.map_singleton, List.intercalate_singleton, ← List.append_nil (List.flatMap _ _)]
        at hread
      obtain ⟨hlasts, -⟩ := lasts_of_scene hs hskept hls (List.forall_mem_nil _) (.inl rfl)
        (fun j => by rw [pieces_nil]; exact List.forall_mem_nil _) hread
      exact ⟨List.forall_mem_singleton.2 hlasts, List.forall_mem_nil _⟩
    | @cons t ms ss mss hms hmss =>
      rw [List.map_cons, List.map_cons, List.intercalate_cons_cons, ← List.map_cons,
        List.append_assoc] at hread
      obtain ⟨hlasts, hcloses, j, htail⟩ := lasts_of_scene hs hskept hls hbreak
        (.inr (busy_between hhead (intercalate_lines_ne_nil hms)))
        (fun j => (group_between hhead j).1) hread
      rw [(group_between hhead j).2] at htail
      obtain ⟨hsslasts, hsscloses⟩ := ih hss hsskept htail
      refine ⟨List.forall_mem_cons.2 ⟨hlasts, hsslasts⟩, ?_⟩
      rw [List.dropLast_cons_cons]
      exact List.forall_mem_cons.2 ⟨hcloses.resolve_left (List.cons_ne_nil _ _), hsscloses⟩

/-! ## Stories -/

/-- A story that is read again as itself lasts. -/
theorem lasts_of_again {source text : String} {g : Game} (h : (compile source).result = .ok g)
    (hwrite : write g = .ok text) (hagain : (compile text).result = .ok g) : g.Lasts := by
  have hgiven := given_of_compile h
  have hkept := normalizeBreaks_of_again hgiven hwrite hagain
  obtain ⟨k, lss, hlss, hdrafts⟩ := exists_drafts_of_again hgiven hwrite hagain
  obtain ⟨hnodes, hcloses⟩ := lasts_of_drafts hgiven
    (fun s hs n hn content hcontent => hkept content (Game.mem_contents hs hn hcontent)) hlss
    hdrafts
  refine ⟨?_, hnodes, hcloses⟩
  obtain ⟨data, p, hdata, hp, hmetadata⟩ := split?_of_write hwrite
  obtain ⟨p', entries, _, told, hp', hload, -, -, htold, hsame, -⟩ := parts_of_compile hagain
  obtain rfl := Option.some.inj (hp.symm.trans hp')
  rw [hmetadata] at hload
  exact lasting_metadataEntries (shown_of_compile h).1 hdata hload htold hsame

/-- **Exactly the stories that last are read again as themselves** from the script that is written
for them. -/
theorem exists_parse_iff_lasts {strict : Bool} {source : String} {g : Game}
    (h : (parse strict source).result = .ok (.ok g)) :
    (∃ text, write g = .ok text ∧ (parse strict text).result = .ok (.ok g)) ↔ g.Lasts := by
  refine ⟨?_, exists_parse_of_lasts h⟩
  rintro ⟨text, hwrite, hagain⟩
  exact lasts_of_again (compile_of_parse h) hwrite (compile_of_parse hagain)

/-- A story of given scenes. -/
def storyOfScenes (scenes : List (Scene Generated)) : Game :=
  { title := "x", scenes := Mapping.ofList (scenes.map fun s => (s.id, s)) }

/-- A script with a fence around a header, a text behind a sound, and a fence that is left open at
the end. -/
def cellarScript : String :=
  "---\ntitle: x\n---\n# start\nHello\n```\n# hall\n```\n<!-- audio: a -->\nWelcome\n" ++
    "* [Down] -> cellar\n```image-gen\nprompt: x\n```\n---\n# cellar\n```\nDark"

def cellarStory : Game :=
  storyOfScenes [
    { id := "start", nodes := [.text "Hello\n```\n# hall\n```" none, .text "Welcome" (some "a"),
        .choice { text := "Down", target := "cellar" }, .generated (.image "x" none none none)] },
    { id := "cellar", nodes := [.text "```\nDark" none] }]

theorem cellar_read_again :
    (parse false cellarScript).result = .ok (.ok cellarStory) ∧ cellarStory.Lasts ∧
      ∃ text, write cellarStory = .ok text ∧
        (parse false text).result = .ok (.ok cellarStory) := by
  have hcompile : (compile cellarScript).result = .ok cellarStory := by cbv
  have hparse := parse_of_compile (by decide +kernel) hcompile
  have hlasts : cellarStory.Lasts := by decide +kernel
  exact ⟨hparse, hlasts, (exists_parse_iff_lasts hparse).2 hlasts⟩

/-- An indented line that would else be a header is text, which is written without its margin and
then read as a header. -/
theorem indentedHeader_lost :
    let told := storyOfScenes [{ id := "s", nodes := [.text "# foo" none] }]
    let again := storyOfScenes [{ id := "s", nodes := [] }, { id := "foo", nodes := [] }]
    (parse false "---\ntitle: x\n---\n# s\n  # foo\n").result = .ok (.ok told) ∧
      write told = .ok "---\ntitle: x\n---\n\n# s\n# foo" ∧
      (parse false "---\ntitle: x\n---\n\n# s\n# foo").result = .ok (.ok again) ∧
      again ≠ told := by
  refine ⟨parse_of_compile (by decide +kernel) (by cbv), by cbv,
    parse_of_compile (by decide +kernel) (by cbv), fun h => ?_⟩
  have hkeys := congrArg (fun g => g.scenes.keys) h
  exact absurd hkeys (by decide +kernel)

end Storyline.Script
