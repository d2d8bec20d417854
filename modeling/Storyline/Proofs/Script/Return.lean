import Storyline.Proofs.Script.Again
import Storyline.Proofs.Script.Canonical.Metadata
import Storyline.Proofs.Text.Breaks

/-!
# Written stories are read again

The script that is written for a story is read as the same story, if nothing of the story is lost:
its front matter lasts, so do its nodes, and no scene but the last leaves a fence open.

## Main definitions

* `Firm`: a filled text without a break that is normalized
* `between`: the lines between two scenes
* `Game.Lasts`: a story of which nothing is lost when it is written and read
* `Game.contents`: the texts of a story

## Main results

* `firm_nodeLines`, `firm_sceneLines`: what is written for nodes and scenes is firm
* `write_eq_ok_iff`, `parts_of_write`: the text of a written story, and what is read of it
* `readAsScenes_sceneLines`: written scenes are read as drafts of the same scenes
* `exists_parse_of_lasts`: a story that lasts is read again
-/

namespace Storyline

open Text

/-- Whether nothing of a story is lost when it is written and read: its front matter and its nodes
last, and no scene but the last leaves a fence open. -/
structure Game.Lasts (g : Game) : Prop where
  metadata : Yaml.Lasting (Script.asEntries (Script.metadataEntries g))
  nodes : ∀ s ∈ g.scenes.values, ∀ n ∈ s.nodes, n.Lasts
  closes : ∀ s ∈ g.scenes.values.dropLast, ∀ n ∈ s.nodes, n.Closes

instance (g : Game) : Decidable g.Lasts :=
  decidable_of_iff (Yaml.Lasting (Script.asEntries (Script.metadataEntries g)) ∧
      (∀ s ∈ g.scenes.values, ∀ n ∈ s.nodes, n.Lasts) ∧
      ∀ s ∈ g.scenes.values.dropLast, ∀ n ∈ s.nodes, n.Closes)
    ⟨fun h => ⟨h.1, h.2.1, h.2.2⟩, fun h => ⟨h.metadata, h.nodes, h.closes⟩⟩

/-- The texts of a story. -/
def Game.contents (g : Game) : List String :=
  g.scenes.values.flatMap fun s => s.nodes.filterMap Node.content?

theorem Game.mem_contents {g : Game} {s : Scene Generated} (hs : s ∈ g.scenes.values)
    {n : Node Generated} (hn : n ∈ s.nodes) {content : String} (h : content ∈ n.content?) :
    content ∈ g.contents :=
  List.mem_flatMap.2 ⟨s, hs, List.mem_filterMap.2 ⟨n, hn, h⟩⟩

/-- The texts of a story that lasts are normalized. -/
theorem Game.Lasts.normalizeBreaks_eq {g : Game} (h : g.Lasts) :
    ∀ content ∈ g.contents, normalizeBreaks content.toList = content.toList := by
  intro content hcontent
  obtain ⟨s, hs, hcontent⟩ := List.mem_flatMap.1 hcontent
  obtain ⟨n, hn, hcontent⟩ := List.mem_filterMap.1 hcontent
  have hn := h.nodes s hs n hn
  cases n with
  | text content' narration =>
    cases hcontent
    exact hn.1
  | _ => cases hcontent

namespace Script

/-! ## Firm texts -/

/-- The lines of texts that are joined are those of each text. -/
theorem lines_unlines_eq {ls : List (List Char)} (h : ls ≠ []) :
    lines (unlines ls) = ls.flatMap lines := by
  induction ls with
  | nil => exact absurd rfl h
  | cons l ls ih =>
    by_cases hnil : ls = []
    · rw [hnil, List.flatMap_singleton]
      rfl
    · rw [unlines_nil_cons l hnil, lines_append_break, ih hnil, List.flatMap_cons]

/-- A filled text without a break that is normalized. -/
structure Firm (s : List Char) : Prop where
  filled : Filled s
  kept : normalizeBreaks s = s

theorem Firm.of_no_return {s : List Char} (h : Filled s) (hs : '\r' ∉ s) : Firm s :=
  ⟨h, normalizeBreaks_of_no_return hs⟩

theorem Firm.of_no_break {s : List Char} (h : Filled s) (hs : '\n' ∉ s) : Firm s :=
  ⟨h, normalizeBreaks_of_no_break hs⟩

theorem ne_return_of_filled {s : List Char} (h : Filled s) : ∀ c ∈ s.getLast?, c ≠ '\r' := by
  rintro c hc rfl
  exact absurd ((trim_eq_self_iff.1 h.2).2 _ hc) (by decide)

/-- Firm texts at both ends make a text firm, if there is no carriage return between them. -/
theorem Firm.between {s t : List Char} (hs : Firm s) (ht : Firm t) {u : List Char}
    (hu : '\r' ∉ u) : Firm (s ++ u ++ t) := by
  refine ⟨hs.filled.between ht.filled u, ?_⟩
  rw [List.append_assoc, normalizeBreaks_append_of_last (ne_return_of_filled hs.filled), hs.kept,
    normalizeBreaks_append hu, ht.kept]

theorem Firm.ne_nil {ls : List (List Char)} (h : Firm (unlines ls)) : ls ≠ [] := by
  rintro rfl
  exact h.filled.1 rfl

theorem Firm.append {ls ms : List (List Char)} (hl : Firm (unlines ls)) (hm : Firm (unlines ms)) :
    Firm (unlines (ls ++ ms)) := by
  rw [unlines_append hl.ne_nil hm.ne_nil, List.append_cons]
  exact hl.between hm (by decide)

theorem Firm.flatten {lss : List (List (List Char))} (hne : lss ≠ [])
    (h : ∀ ls ∈ lss, Firm (unlines ls)) : Firm (unlines lss.flatten) := by
  induction lss with
  | nil => exact absurd rfl hne
  | cons ls lss ih =>
    obtain ⟨hls, hlss⟩ := List.forall_mem_cons.1 h
    rw [List.flatten_cons]
    by_cases hnil : lss = []
    · rw [hnil, List.flatten_nil, List.append_nil]
      exact hls
    · exact hls.append (ih hnil hlss)

/-! ## Written nodes and scenes -/

theorem firm_headerLine {id : String} (h : IsName id) : Firm s!"# {id}".toList := by
  refine .of_no_break ?_ (unbroken_headerLine h)
  have hid : Filled id.toList := filled_of_forall h.1 fun c hc => isBlank_of_isNameChar (h.2 c hc)
  have hmark : Filled ['#'] := ⟨List.cons_ne_nil _ _, rfl⟩
  rw [headerLine_eq]
  exact hmark.between hid [' ']

theorem firm_opening : ∀ fence ∈ mediaFences, Filled (fenceMark ++ fence.toList) ∧
    '\r' ∉ fenceMark ++ fence.toList := by
  unfold Filled
  decide

/-- What is written for generated media is firm. -/
theorem firm_fenceLines {media : Generated} {text : List Char}
    (htext : Yaml.renderBody ["characters"] (asEntries (mediaFields media)) = .ok text) :
    Firm (unlines ((fenceMark ++ (fenceName media).toList) :: lines text ++ [fenceMark])) := by
  obtain ⟨hopening, hopened⟩ := firm_opening _ (fenceName_mem media)
  have hshown := Yaml.allShown_of_renderBody (mediaFields_ne_nil media) (data_mediaFields media)
    htext
  have hreturn : '\r' ∉ (lines text).flatMap ('\n' :: ·) ++ ['\n'] := by
    rw [List.mem_append, List.mem_flatMap]
    rintro (⟨l, hl, hmem⟩ | hmem)
    · rcases List.mem_cons.1 hmem with he | hmem
      · exact absurd he (by decide)
      · exact absurd (hshown '\r' (mem_of_mem_lines hl hmem)) (by decide)
    · exact absurd hmem (by decide)
  rw [unlines_concat]
  exact (Firm.of_no_return hopening hopened).between
    (.of_no_return ⟨List.cons_ne_nil _ _, rfl⟩ (by decide)) hreturn

/-- The comment that is written for a sound is firm. -/
theorem firm_narrationLine {url : String} (h : IsAddress url) :
    Firm s!"<!-- audio: {url} -->".toList := by
  refine .of_no_break ?_ (stands_narration h).1
  have hends := Filled.between (s := "<!--".toList) (t := "-->".toList) ⟨by decide, by decide⟩
    ⟨by decide, by decide⟩ (' ' :: ("audio:".toList ++ (' ' :: url.toList ++ [' '])))
  rw [narrationLine_eq]
  simpa using hends

/-- What lasts can be written. -/
theorem exists_nodeLines {n : Node Generated} (h : n.Lasts) : ∃ ls, nodeLines n = .ok ls := by
  cases n with
  | generated media =>
    obtain ⟨text, htext, -⟩ := exists_loadBlock h
    exact ⟨_, Except.bind_eq_ok_iff.2 ⟨text, htext, rfl⟩⟩
  | _ => exact ⟨_, rfl⟩

theorem exists_sceneLines {s : Scene Generated} (h : ∀ n ∈ s.nodes, n.Lasts) :
    ∃ ls, sceneLines s = .ok ls := by
  obtain ⟨lss, hlss⟩ := Except.exists_mapM_iff.2 fun n hn => exists_nodeLines (h n hn)
  exact ⟨_, Except.bind_eq_ok_iff.2 ⟨lss, hlss, rfl⟩⟩

/-- What is written for a node is firm. -/
theorem firm_nodeLines {n : Node Generated} {ls : List (List Char)} (hnormal : n.Normal)
    (hgiven : n.Given)
    (hkept : ∀ content ∈ n.content?, normalizeBreaks content.toList = content.toList)
    (h : nodeLines n = .ok ls) : Firm (unlines ls) := by
  cases written_of_nodeLines hgiven h with
  | @text content => exact ⟨hnormal.filled, hkept content rfl⟩
  | @narrated content url _ hurl =>
    have hcontent : Firm (unlines [content.toList]) := ⟨hnormal.filled, hkept content rfl⟩
    have hcomment : Firm (unlines [s!"<!-- audio: {url} -->".toList]) := firm_narrationLine hurl
    exact hcomment.append hcontent
  | generated htext => exact firm_fenceLines htext
  | single _ _ _ hfilled hstands => exact .of_no_break hfilled hstands.1

/-- What is written for a scene is firm. -/
theorem firm_sceneLines {s : Scene Generated} {ls : List (List Char)} (hgiven : s.Given)
    (hkept : ∀ n ∈ s.nodes, ∀ content ∈ n.content?,
      normalizeBreaks content.toList = content.toList)
    (h : sceneLines s = .ok ls) : Firm (unlines ls) := by
  obtain ⟨lss, hlss, h⟩ := Except.bind_eq_ok_iff.1 h
  cases h
  have hheader : Firm (unlines [s!"# {s.id}".toList]) := firm_headerLine hgiven.name
  have hnodes : ∀ ls ∈ lss, Firm (unlines ls) := by
    intro ls hls
    obtain ⟨n, hn, hls⟩ := Except.exists_of_mem_mapM hlss hls
    exact firm_nodeLines (hgiven.normal.nodes n hn) (hgiven.nodes.given n hn) (hkept n hn) hls
  by_cases hne : lss = []
  · rw [hne]
    exact hheader
  · exact hheader.append (.flatten hne hnodes)

/-! ## Written stories -/

/-- The lines between two scenes. -/
def between : List (List Char) := [[], rule, []]

theorem unlines_between {ls ms : List (List Char)} (hl : ls ≠ []) (hm : ms ≠ []) :
    unlines (ls ++ between ++ ms) = unlines ls ++ (['\n', '\n'] ++ rule ++ ['\n', '\n']) ++
      unlines ms := by
  have hbetween : between ≠ [] := List.cons_ne_nil _ _
  rw [unlines_append (List.append_ne_nil_of_left_ne_nil hl _) hm, unlines_append hl hbetween]
  simp [between, unlines]

theorem intercalate_ne_nil {gap ls : List (List Char)} {lss : List (List (List Char))}
    (h : ls ≠ []) : List.intercalate gap (ls :: lss) ≠ [] := by
  cases lss with
  | nil => rwa [List.intercalate_singleton]
  | cons ms lss =>
    rw [List.intercalate_cons_cons]
    simp [h]

/-- Scenes as texts with a rule between them are the text of their lines with a rule between. -/
theorem intercalate_unlines {lss : List (List (List Char))} (h : ∀ ls ∈ lss, ls ≠ []) :
    List.intercalate (['\n', '\n'] ++ rule ++ ['\n', '\n']) (lss.map unlines) =
      unlines (List.intercalate between lss) := by
  induction lss with
  | nil => rfl
  | cons ls lss ih =>
    obtain ⟨hls, hlss⟩ := List.forall_mem_cons.1 h
    cases lss with
    | nil => rw [List.map_singleton, List.intercalate_singleton, List.intercalate_singleton]
    | cons ms lss =>
      have ih := ih hlss
      rw [List.map_cons] at ih
      rw [List.map_cons, List.map_cons, List.intercalate_cons_cons, List.intercalate_cons_cons, ih,
        unlines_between hls (intercalate_ne_nil (hlss ms List.mem_cons_self))]

/-- Scenes with a rule between them are firm together. -/
theorem firm_intercalate {lss : List (List (List Char))} (hne : lss ≠ [])
    (h : ∀ ls ∈ lss, Firm (unlines ls)) : Firm (unlines (List.intercalate between lss)) := by
  induction lss with
  | nil => exact absurd rfl hne
  | cons ls lss ih =>
    obtain ⟨hls, hlss⟩ := List.forall_mem_cons.1 h
    cases lss with
    | nil => rwa [List.intercalate_singleton]
    | cons ms lss =>
      have hrest := ih (List.cons_ne_nil ms lss) hlss
      rw [List.intercalate_cons_cons, unlines_between hls.ne_nil hrest.ne_nil]
      exact hls.between hrest (by decide)

/-- The lines of scenes with a rule between them. -/
theorem flatMap_lines_intercalate (lss : List (List (List Char))) :
    (List.intercalate between lss).flatMap lines =
      List.intercalate between (lss.map (List.flatMap lines)) := by
  induction lss with
  | nil => rfl
  | cons ls lss ih =>
    cases lss with
    | nil => rw [List.map_singleton, List.intercalate_singleton, List.intercalate_singleton]
    | cons ms lss =>
      have hbetween : between.flatMap lines = between := by decide
      rw [List.map_cons] at ih
      rw [List.map_cons, List.map_cons, List.intercalate_cons_cons, List.intercalate_cons_cons,
        List.flatMap_append, List.flatMap_append, hbetween, ih]

theorem unbroken_flatMap_lines (ls : List (List Char)) : ∀ l ∈ ls.flatMap lines, '\n' ∉ l := by
  intro l hl
  obtain ⟨m, -, hl⟩ := List.mem_flatMap.1 hl
  exact not_mem_of_mem_lines hl

/-- The text of a written story. -/
theorem write_eq_ok_iff {g : Game} {source : String} :
    write g = .ok source ↔ ∃ text lss, writeMetadata g = .ok text ∧
      g.scenes.values.mapM sceneLines = .ok lss ∧ source = String.ofList
        (trim (framed text ++ ['\n', '\n'] ++ unlines (List.intercalate between lss))) := by
  have hne {lss} (hlss : g.scenes.values.mapM sceneLines = .ok lss) : ∀ ls ∈ lss, ls ≠ [] := by
    intro ls hls
    obtain ⟨s, -, hs⟩ := Except.exists_of_mem_mapM hlss hls
    obtain ⟨nls, -, hs⟩ := Except.bind_eq_ok_iff.1 hs
    cases hs
    exact List.cons_ne_nil _ _
  unfold write
  constructor
  · intro h
    obtain ⟨text, htext, h⟩ := Except.bind_eq_ok_iff.1 h
    obtain ⟨lss, hlss, h⟩ := Except.bind_eq_ok_iff.1 h
    cases h
    exact ⟨text, lss, htext, hlss, by rw [← intercalate_unlines (hne hlss)]; rfl⟩
  · rintro ⟨text, lss, htext, hlss, rfl⟩
    rw [htext, hlss, ← intercalate_unlines (hne hlss)]
    rfl

theorem filled_framed (text : List Char) : Filled (framed text) := by
  have hrule : Filled rule := ⟨by decide, by decide⟩
  have h := hrule.between hrule ('\n' :: text ++ ['\n'])
  simpa [framed] using h

/-- Nothing is taken from the text of a written story at its end, unless it has no scenes. -/
theorem trim_framed {lss : List (List (List Char))} (text : List Char)
    (h : ∀ ls ∈ lss, Firm (unlines ls)) :
    ∃ t, trim (framed text ++ ['\n', '\n'] ++ unlines (List.intercalate between lss)) =
        framed text ++ t ∧ normalizeBreaks t = t ∧
      (lss = [] ∧ t = [] ∨
        lss ≠ [] ∧ t = '\n' :: '\n' :: unlines (List.intercalate between lss)) := by
  by_cases hne : lss = []
  · refine ⟨[], ?_, rfl, .inl ⟨hne, rfl⟩⟩
    have hblank : Blank (['\n', '\n'] ++ unlines (List.intercalate between lss)) := by
      rw [hne, List.intercalate_nil]
      exact List.forall_mem_cons.2 ⟨by decide, List.forall_mem_singleton.2 (by decide)⟩
    rw [List.append_assoc, trim_append_blank _ hblank, List.append_nil]
    exact (filled_framed text).2
  · have hfirm := firm_intercalate hne h
    refine ⟨_, ((filled_framed text).between hfirm.filled _).2.trans (List.append_assoc ..), ?_,
      .inr ⟨hne, rfl⟩⟩
    rw [normalizeBreaks_append (by decide), hfirm.kept]

/-- The parts of a written story: its front matter, and an empty line and the lines of its
scenes. -/
theorem split?_written {text : List Char} {lss : List (List (List Char))} (hreturn : '\r' ∉ text)
    (hrule : ∀ l ∈ lines text, isRule l = false) (h : ∀ ls ∈ lss, Firm (unlines ls)) :
    ∃ p, split? (String.ofList (trim
        (framed text ++ ['\n', '\n'] ++ unlines (List.intercalate between lss)))) = some p ∧
      p.metadata = String.ofList text ∧ lines p.body.toList =
        [] :: List.intercalate between (lss.map (List.flatMap lines)) := by
  obtain ⟨t, htrim, hkept, ht⟩ := trim_framed text h
  have hbegins : t = [] ∨ ∃ r, t = '\n' :: r :=
    ht.imp And.right fun ht => ⟨_, ht.2⟩
  obtain ⟨p, rest, hp, hmetadata, hbody, hrest⟩ := split?_framed hreturn hrule hbegins
  refine ⟨p, by rw [htrim, hp], hmetadata, ?_⟩
  rw [hbody, String.toList_ofList]
  rw [hkept] at hrest
  rcases ht with ⟨rfl, rfl⟩ | ⟨hne, rfl⟩
  · obtain rfl : [] = rest := (List.cons.inj hrest).2
    rfl
  · rw [lines_append_break, ← List.nil_append ('\n' :: _), lines_append_break] at hrest
    obtain rfl := (List.cons.inj hrest).2
    have hfirm := firm_intercalate hne h
    rw [← flatMap_lines_intercalate, ← lines_unlines_eq hfirm.ne_nil]
    refine lines_unlines (List.cons_ne_nil _ _) (List.forall_mem_cons.2 ⟨List.not_mem_nil, ?_⟩)
    exact fun l hl => not_mem_of_mem_lines hl

/-! ## Scenes again -/

theorem id_of_scene {d : Draft} {s : Scene Generated} (h : (scene d).result = .ok s) :
    d.id = s.id := by
  rw [result_scene] at h
  obtain ⟨ns, -, rfl⟩ := Except.map_eq_ok_iff.1 h
  rfl

/-- Whether pieces are read as given scenes, with nothing but idle lines in front of them. -/
structure ReadAsScenes (ps : List (Nat × Piece)) (ss : List (Scene Generated)) : Prop where
  closed : ∀ scene, unclosed? scene ps = none
  idle : ∀ p ∈ (group ps).prose, isIdle p.2 = true
  blocks : (group ps).blocks = []
  drafts : List.Forall₂ (fun d s => (scene d).result = .ok s) (group ps).drafts ss

theorem readAsScenes_nil : ReadAsScenes [] [] where
  closed _ := rfl
  idle := List.forall_mem_nil _
  blocks := rfl
  drafts := .nil

/-- Idle lines may stand in front. -/
theorem ReadAsScenes.append_idle {ps : List (Nat × Piece)} {ss : List (Scene Generated)}
    (h : ReadAsScenes ps ss) {gap : List (List Char)} (hgap : ∀ l ∈ gap, isIdle l = true)
    (n : Nat) : ReadAsScenes (prosePieces n gap ++ ps) ss where
  closed scene := by rw [unclosed?_prosePieces, h.closed]
  idle := by
    rw [group_prosePieces]
    refine List.forall_mem_append.2 ⟨fun p hp => hgap _ ?_, h.idle⟩
    rw [← map_snd_numbered n gap]
    exact List.mem_map_of_mem hp
  blocks := by rw [group_prosePieces, h.blocks]
  drafts := by
    rw [group_prosePieces]
    exact h.drafts

/-- A header in front of the nodes of a scene makes the scene. -/
theorem ReadAsScenes.cons {ps qs : List (Nat × Piece)} {s : Scene Generated}
    {ss : List (Scene Generated)} (hrow : RowInFront s.nodes ps qs) (h : ReadAsScenes qs ss)
    (n : Nat) : ReadAsScenes ((n, .header s.id) :: ps) (s :: ss) where
  closed _ := (hrow.closed _).trans (h.closed _)
  idle := List.forall_mem_nil _
  blocks := rfl
  drafts := by
    have hnodes := hrow.nodes s.id 0
    rw [allBlocks_of_idle h.idle, h.blocks, result_nodes_nil] at hnodes
    refine .cons ?_ ?_
    · rw [result_scene]
      show Except.map _ (Script.nodes s.id 0 none (group ps).allBlocks).result = _
      rw [hnodes]
      show Except.ok { s with nodes := s.nodes ++ [] } = _
      rw [List.append_nil]
    · show List.Forall₂ _ (group ps).drafts ss
      rw [hrow.drafts]
      exact h.drafts

theorem pieces_between (n : Nat) (ls : List (List Char)) :
    pieces n (between ++ ls) = prosePieces n between ++ pieces (n + 3) ls := by
  have hblank : linePiece [] = .prose [] := by decide
  have hrule : linePiece rule = .prose rule := by decide
  rw [between, List.cons_append, List.cons_append, List.cons_append,
    pieces_line (by decide) (by decide), pieces_line (by decide) (by decide),
    pieces_line (by decide) (by decide), hblank, hrule]
  rfl

/-- **What is written for scenes is read as these scenes**, if nothing of them is lost. -/
theorem readAsScenes_sceneLines {ss : List (Scene Generated)} {lss : List (List (List Char))}
    (hgiven : ∀ s ∈ ss, s.Given) (hlasts : ∀ s ∈ ss, ∀ n ∈ s.nodes, n.Lasts)
    (hcloses : ∀ s ∈ ss.dropLast, ∀ n ∈ s.nodes, n.Closes) (h : ss.mapM sceneLines = .ok lss)
    (k : Nat) :
    ReadAsScenes (pieces k (List.intercalate between (lss.map (List.flatMap lines)))) ss := by
  rw [Except.mapM_eq_ok_iff] at h
  induction h generalizing k with
  | nil =>
    rw [List.map_nil, List.intercalate_nil, pieces_nil]
    exact readAsScenes_nil
  | @cons s ls ss lss hls hlss ih =>
    obtain ⟨nls, hnls, hls⟩ := Except.bind_eq_ok_iff.1 hls
    cases hls
    obtain ⟨hs, hss⟩ := List.forall_mem_cons.1 hgiven
    obtain ⟨hslasts, hsslasts⟩ := List.forall_mem_cons.1 hlasts
    have hheader := lines_eq_singleton (unbroken_headerLine hs.name)
    -- What follows the scene is nothing, or idle lines in front of the next scene.
    have hinFront (rest : List (List Char)) (hrest : rest = [] ∨ ∀ n ∈ s.nodes, n.Closes)
        (hreads : ∀ j, ReadAsScenes (pieces j rest) ss) :
        ReadAsScenes (pieces k (List.flatMap lines (s!"# {s.id}".toList :: nls.flatten) ++ rest))
          (s :: ss) := by
      rw [List.flatMap_cons, hheader, List.append_assoc, List.singleton_append,
        pieces_header (header?_name hs.name)]
      have hrow := rowInFront_nodeLines hs.normal.nodes hs.normal.chain hs.nodes hslasts hnls
        (k + 1) hrest (hreads _).idle
      exact .cons hrow (hreads _) k
    cases hlss with
    | nil =>
      rw [List.map_singleton, List.intercalate_singleton, ← List.append_nil (List.flatMap _ _)]
      refine hinFront [] (.inl rfl) fun j => ?_
      rw [pieces_nil]
      exact readAsScenes_nil
    | @cons s' ms ss mss _ _ =>
      rw [List.dropLast_cons_cons] at hcloses
      obtain ⟨hscloses, hsscloses⟩ := List.forall_mem_cons.1 hcloses
      rw [List.map_cons, List.map_cons, List.intercalate_cons_cons, List.append_assoc]
      refine hinFront _ (.inr hscloses) fun j => ?_
      rw [pieces_between]
      exact (ih hss hsslasts hsscloses _).append_idle (by decide) j

/-! ## Stories again -/

/-- Scenes that are added are put under their names. -/
theorem result_foldlM_addScene {ds : List Draft} {ss : List (Scene Generated)}
    (h : List.Forall₂ (fun d s => (scene d).result = .ok s) ds ss)
    (scenes : Mapping (Scene Generated)) : (ds.foldlM addScene scenes).result =
      .ok ((ss.map fun s => (s.id, s)).foldl (fun m p => m.insert p.1 p.2) scenes) := by
  induction h generalizing scenes with
  | nil => rfl
  | @cons d s ds ss hd _ ih =>
    have hadd : (addScene scenes d).result = .ok (scenes.insert s.id s) := by
      rw [result_addScene, hd, id_of_scene hd]
      rfl
    rw [List.foldlM_cons, Logged.result_bind_ok hadd, ih]
    rfl

/-- The scenes of a normal story, under their names, are its scenes. -/
theorem ofList_values {scenes : Mapping (Scene Generated)} (h : NormalScenes scenes) :
    Mapping.ofList (scenes.values.map fun s => (s.id, s)) = scenes := by
  have hpairs : (scenes.values.map fun s => (s.id, s)) = scenes.toList := by
    rw [Mapping.values, List.map_map]
    refine (List.map_congr_left fun p hp => ?_).trans (List.map_id _)
    rw [Function.comp_apply, (h p.1 p.2 (Mapping.get?_eq_some_iff.2 hp)).2.1]
    rfl
  rw [hpairs, ofList_toList]

/-- The first line of written scenes is a header. -/
theorem header?_of_mem_head? {ss : List (Scene Generated)} {lss : List (List (List Char))}
    (hgiven : ∀ s ∈ ss, s.Given) (h : ss.mapM sceneLines = .ok lss) :
    ∀ l ∈ (List.intercalate between (lss.map (List.flatMap lines))).head?,
      (header? l).isSome = true := by
  rw [Except.mapM_eq_ok_iff] at h
  intro l hl
  cases h with
  | nil => cases hl
  | @cons s ls ss lss hls _ =>
    obtain ⟨nls, -, hls⟩ := Except.bind_eq_ok_iff.1 hls
    cases hls
    have hname := (hgiven s List.mem_cons_self).name
    have hhead (t : List (List (List Char))) :
        (List.intercalate between ((s!"# {s.id}".toList :: nls.flatten.flatMap lines) :: t)).head? =
          some s!"# {s.id}".toList := by
      cases t with
      | nil => rw [List.intercalate_singleton]; rfl
      | cons u t => rw [List.intercalate_cons_cons]; rfl
    rw [List.map_cons, List.flatMap_cons, lines_eq_singleton (unbroken_headerLine hname),
      List.singleton_append, hhead] at hl
    cases hl
    rw [header?_name hname]
    rfl

/-- The heading of the story of a script is shown, and the story starts where all stories do. -/
theorem shown_of_compile {source : String} {g : Game} (h : (compile source).result = .ok g) :
    (Heading.ofGame g).Shown ∧ g.start = "start" := by
  obtain ⟨_, _, _, told, -, -, -, -, htold, hg, -⟩ := parts_of_compile h
  have hshown := shown_of_readMetadata htold
  rw [hg]
  exact hshown

/-- Front matter that is written for the story of a script is read as the same story. -/
theorem readMetadata_of_compile {source : String} {g : Game}
    (h : (compile source).result = .ok g) :
    readMetadata (asEntries (metadataEntries g)) = .ok { g with scenes := Mapping.empty } := by
  obtain ⟨hshown, hstart⟩ := shown_of_compile h
  rw [readMetadata_metadataEntries hshown, ← hstart]

/-- The text of a written story is not blank. -/
theorem allBlank_written (text t : List Char) :
    allBlank (String.ofList (trim (framed text ++ ['\n', '\n'] ++ t))) = false := by
  have hmem : '-' ∈ trim (framed text ++ ['\n', '\n'] ++ t) :=
    mem_trim_of_mem (by simp [framed, rule]) rfl
  rw [allBlank, String.toList_ofList, List.all_eq_false]
  exact ⟨'-', hmem, by decide⟩

/-- What is read of a written story whose texts are normalized. -/
theorem parts_of_write {g : Game} {source : String} (hgiven : ∀ s ∈ g.scenes.values, s.Given)
    (hkept : ∀ content ∈ g.contents, normalizeBreaks content.toList = content.toList)
    (h : write g = .ok source) :
    ∃ p text lss, split? source = some p ∧ writeMetadata g = .ok text ∧
      p.metadata = String.ofList text ∧ g.scenes.values.mapM sceneLines = .ok lss ∧
      (drafts p.bodyLine p.body).result = scenesOf (pieces (p.bodyLine + 1)
        (List.intercalate between (lss.map (List.flatMap lines)))) := by
  obtain ⟨text, lss, htext, hlss, rfl⟩ := write_eq_ok_iff.1 h
  have hfirm : ∀ ls ∈ lss, Firm (unlines ls) := by
    intro ls hls
    obtain ⟨s, hs, hls⟩ := Except.exists_of_mem_mapM hlss hls
    exact firm_sceneLines (hgiven s hs)
      (fun n hn content hcontent => hkept content (Game.mem_contents hs hn hcontent)) hls
  have hdata := data_metadataEntries g
  have hshown := Yaml.allShown_of_renderBody (metadataEntries_ne_nil g) hdata htext
  have hreturn : '\r' ∉ text := fun hmem => absurd (hshown '\r' hmem) (by decide)
  obtain ⟨p, hp, hmetadata, hbody⟩ := split?_written hreturn
    (fun l hl => (not_delimiter_of_renderBody hdata htext l hl).1) hfirm
  refine ⟨p, text, lss, hp, htext, hmetadata, hlss, ?_⟩
  -- The empty line in front of the scenes is their preamble.
  have hdrafts := @result_draftsOfLines p.bodyLine [[]] _
    (List.forall_mem_singleton.2 (by decide)) (header?_of_mem_head? hgiven hlss)
  rwa [List.singleton_append, ← hbody] at hdrafts

/-- **A story that lasts is read again**: the script that is written for it is parsed to it. -/
theorem exists_parse_of_lasts {strict : Bool} {source : String} {g : Game}
    (h : (parse strict source).result = .ok (.ok g)) (hlasts : g.Lasts) :
    ∃ text, write g = .ok text ∧ (parse strict text).result = .ok (.ok g) := by
  have hcompile := compile_of_parse h
  have hgiven := given_of_compile hcompile
  obtain ⟨text, htext, hload⟩ := exists_loadMetadata hlasts.metadata
  obtain ⟨lss, hlss⟩ : ∃ lss, g.scenes.values.mapM sceneLines = .ok lss :=
    Except.exists_mapM_iff.2 fun s hs => exists_sceneLines (hlasts.nodes s hs)
  have hwrite := write_eq_ok_iff.2 ⟨text, lss, htext, hlss, rfl⟩
  refine ⟨_, hwrite, parse_of_parse (allBlank_written text _) h ?_⟩
  obtain ⟨p, text', lss', hp, htext', hmetadata, hlss', hdrafts⟩ :=
    parts_of_write hgiven hlasts.normalizeBreaks_eq hwrite
  obtain rfl := Except.ok.inj (htext.symm.trans htext')
  obtain rfl := Except.ok.inj (hlss.symm.trans hlss')
  have hreads := readAsScenes_sceneLines hgiven hlasts.nodes hlasts.closes hlss (p.bodyLine + 1)
  rw [scenesOf, hreads.closed] at hdrafts
  have hscenes := result_foldlM_addScene hreads.drafts Mapping.empty
  rw [← Mapping.ofList, ofList_values (gives_compile source g hcompile)] at hscenes
  have htold := compile_of_parts hp (by rw [hmetadata, hload]) hdrafts hscenes
    (readMetadata_of_compile hcompile)
  exact htold

end Script

end Storyline
