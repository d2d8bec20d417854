import Storyline.Proofs.Lint.Parts
import Storyline.Proofs.Script.Census

/-!
# Stories that are read again as themselves

What must be true of a story whose written script is read as the same story. Each text of the story
stands in the script that it is read from, so if carriage returns were in front of a line feed in
one of its texts, more of them would be in front of a line feed in another. And since reading makes
no headers, each scene is read from the lines that are written for it.

## Main results

* `infix_of_mem_contents`: the texts of a story stand in its script
* `normalizeBreaks_of_again`: the texts of a story that is read again have no carriage return in
  front of a line feed
* `exists_drafts_of_again`: the scenes of such a story are read one by one
-/

namespace Storyline

open Text

namespace Script

/-! ## Texts in a script -/

theorem suffix_unlines_append (ls ms : List (List Char)) : unlines ms <:+ unlines (ls ++ ms) := by
  by_cases hl : ls = []
  · rw [hl, List.nil_append]
  by_cases hm : ms = []
  · rw [hm]
    exact List.nil_suffix
  rw [unlines_append hl hm]
  exact (List.suffix_cons _ _).trans (List.suffix_append _ _)

theorem prefix_unlines_append (ls ms : List (List Char)) : unlines ls <+: unlines (ls ++ ms) := by
  by_cases hl : ls = []
  · rw [hl]
    exact List.nil_prefix
  by_cases hm : ms = []
  · rw [hm, List.append_nil]
  rw [unlines_append hl hm]
  exact List.prefix_append _ _

/-- The texts of a story stand in its script. -/
theorem infix_of_mem_contents {source : String} {g : Game} {p : Parts}
    (h : (compile source).result = .ok g) (hp : split? source = some p) :
    ∀ content ∈ g.contents, content.toList <:+: p.body.toList := by
  intro content hcontent
  obtain ⟨s, hs, hcontent⟩ := List.mem_flatMap.1 hcontent
  obtain ⟨p', ds, hp', hds, hscenes, -⟩ := compile_eq_ok h
  obtain rfl := Option.some.inj (hp.symm.trans hp')
  obtain ⟨d, hd, hscene⟩ := exists_draft_of_mem hscenes hs
  rw [contents_scene hscene] at hcontent
  obtain ⟨b, hb, hcontent⟩ := List.mem_filterMap.1 hcontent
  have hform : b.form = .text content := by
    rw [Block.content?] at hcontent
    split at hcontent
    · next c hc => rw [hc, Option.some.inj hcontent]
    · cases hcontent
  -- The block of the text has its place among the lines of the script.
  obtain ⟨preamble, rest, spans, hls, -, hlaid, hspans⟩ :=
    laid_of_draftsOfLines (fun l hl => not_mem_of_mem_lines hl) hds
  have hitem : b.item ∈ spans.map Span.entry := by
    rw [hspans]
    exact List.mem_flatMap.2 ⟨d, hd, List.mem_cons_of_mem _ (List.mem_map_of_mem hb)⟩
  obtain ⟨span, hspan, hentry⟩ := List.mem_map.1 hitem
  obtain ⟨hstands, before, after, hrest, -⟩ := hlaid.mem span hspan
  have hspanItem : span.item = .block (.text content) := by
    rw [← hform]
    exact congrArg Prod.snd hentry
  rw [hspanItem] at hstands
  rw [hstands.2, ← unlines_lines p.body.toList, hls, hrest, ← List.append_assoc,
    ← List.append_assoc]
  exact (trim_isInfix _).trans
    ((suffix_unlines_append _ _).isInfix.trans (prefix_unlines_append _ _).isInfix)

/-- Carriage returns in front of a line feed of a body were one more in the script. -/
theorem returns_of_body {source : String} {p : Parts} (hp : split? source = some p) {k : Nat}
    (hk : 0 < k) (h : returns k <:+: p.body.toList) : returns (k + 1) <:+: source.toList := by
  obtain ⟨opening, metadata, closing, body, hlines, -, -, -, rfl⟩ := split?_eq_some hp
  rw [String.toList_ofList] at h
  have hbody : unlines body <:+
      normalizeBreaks (source.toList.dropWhile (· = '\uFEFF')) := by
    rw [← unlines_lines (normalizeBreaks _)]
    change _ <:+ unlines (readLines source)
    have hcut : readLines source =
        blankFront source ++ opening :: metadata ++ [closing] ++ body := by
      rw [hlines]
      simp
    rw [hcut]
    exact suffix_unlines_append _ _
  exact (returns_of_normalizeBreaks hk (h.trans hbody.isInfix)).trans
    (List.dropWhile_suffix _).isInfix

/-! ## Texts among written lines -/

/-- What is written for a node are lines without a break, and its text. None of them ends in a
carriage return. -/
theorem of_mem_nodeLines {n : Node Generated} {ls : List (List Char)} (hnormal : n.Normal)
    (hgiven : n.Given) (h : nodeLines n = .ok ls) : ∀ l ∈ ls,
      (∀ c ∈ l.getLast?, c ≠ '\r') ∧ ('\n' ∈ l → ∃ content ∈ n.content?, l = content.toList) := by
  have hline {n : Node Generated} {l : List Char} (hl : Filled l) (hbreak : '\n' ∉ l) :
      (∀ c ∈ l.getLast?, c ≠ '\r') ∧ ('\n' ∈ l → ∃ content ∈ n.content?, l = content.toList) :=
    ⟨ne_return_of_filled hl, fun hmem => absurd hmem hbreak⟩
  cases written_of_nodeLines hgiven h with
  | @text content =>
    exact List.forall_mem_singleton.2
      ⟨ne_return_of_filled hnormal.filled, fun _ => ⟨content, rfl, rfl⟩⟩
  | @narrated content url _ hurl =>
    refine List.forall_mem_cons.2 ⟨hline (firm_narrationLine hurl).filled (stands_narration hurl).1,
      List.forall_mem_singleton.2 ?_⟩
    exact ⟨ne_return_of_filled hnormal.filled, fun _ => ⟨content, rfl, rfl⟩⟩
  | @generated media text htext =>
    have hshown := Yaml.allShown_of_renderBody (mediaFields_ne_nil media) (data_mediaFields media)
      htext
    obtain ⟨hopening, -⟩ := firm_opening _ (fenceName_mem media)
    rw [List.cons_append, List.forall_mem_cons, List.forall_mem_append]
    refine ⟨hline hopening (opens_fence _ (fenceName_mem media)).2.2, fun l hl => ⟨?_, ?_⟩,
      List.forall_mem_singleton.2 (hline ⟨by decide, by decide⟩ (by decide))⟩
    · rintro c hc rfl
      exact absurd (hshown '\r' (mem_of_mem_lines hl (List.mem_of_mem_getLast? hc))) (by decide)
    · exact fun hmem => absurd hmem (not_mem_of_mem_lines hl)
  | single _ _ _ hfilled hstands =>
    exact List.forall_mem_singleton.2 (hline hfilled hstands.1)

/-- What is written for scenes are lines without a break, and texts of the scenes. None of them ends
in a carriage return. -/
theorem of_mem_sceneLines {ss : List (Scene Generated)} {lss : List (List (List Char))}
    (hgiven : ∀ s ∈ ss, s.Given) (h : ss.mapM sceneLines = .ok lss) :
    ∀ l ∈ List.intercalate between lss, (∀ c ∈ l.getLast?, c ≠ '\r') ∧
      ('\n' ∈ l → ∃ s ∈ ss, ∃ content ∈ s.nodes.filterMap Node.content?,
        l = content.toList) := by
  intro l hl
  rcases Yaml.mem_intercalate hl with ⟨ls, hls, hl⟩ | hl
  · obtain ⟨s, hs, hls⟩ := Except.exists_of_mem_mapM h hls
    obtain ⟨nls, hnls, hls⟩ := Except.bind_eq_ok_iff.1 hls
    cases hls
    rcases List.mem_cons.1 hl with rfl | hl
    · exact ⟨ne_return_of_filled (firm_headerLine (hgiven s hs).name).filled,
        fun hmem => absurd hmem (unbroken_headerLine (hgiven s hs).name)⟩
    · obtain ⟨ms, hms, hl⟩ := List.mem_flatten.1 hl
      obtain ⟨n, hn, hms⟩ := Except.exists_of_mem_mapM hnls hms
      obtain ⟨hlast, hcontent⟩ := of_mem_nodeLines ((hgiven s hs).normal.nodes n hn)
        ((hgiven s hs).nodes.given n hn) hms l hl
      refine ⟨hlast, fun hmem => ?_⟩
      obtain ⟨content, hn', hl⟩ := hcontent hmem
      exact ⟨s, hs, content, List.mem_filterMap.2 ⟨n, hn, hn'⟩, hl⟩
  · have hbetween : ∀ l ∈ between, (∀ c ∈ l.getLast?, c ≠ '\r') ∧ '\n' ∉ l := by
      simp [between, rule]
    exact ⟨(hbetween l hl).1, fun hmem => absurd hmem (hbetween l hl).2⟩

/-! ## Texts without carriage returns -/

/-- If the written script of a story is read as the same story, carriage returns in front of a line
feed in one of its texts are more in another. -/
theorem exists_returns_of_again {g : Game} {text : String} (hgiven : ∀ s ∈ g.scenes.values, s.Given)
    (hwrite : write g = .ok text) (hagain : (compile text).result = .ok g) {k : Nat}
    (h : ∃ content ∈ g.contents, returns (k + 1) <:+: content.toList) :
    ∃ content ∈ g.contents, returns (k + 2) <:+: content.toList := by
  obtain ⟨content, hcontent, h⟩ := h
  obtain ⟨p, -, hp, -⟩ := compile_eq_ok hagain
  have hsource := returns_of_body hp k.succ_pos
    (h.trans (infix_of_mem_contents hagain hp _ hcontent))
  obtain ⟨data, lss, hdata, hlss, rfl⟩ := write_eq_ok_iff.1 hwrite
  rw [String.toList_ofList] at hsource
  have hreturn : '\r' ∉ framed data ++ ['\n', '\n'] := by
    have hshown := Yaml.allShown_of_renderBody (metadataEntries_ne_nil g) (data_metadataEntries g)
      hdata
    have hdata : '\r' ∉ data := fun hmem => absurd (hshown '\r' hmem) (by decide)
    simp [framed, rule, hdata]
  rcases returns_of_append (by simp) (hsource.trans (trim_isInfix _)) with hfront | hscenes
  · exact absurd hfront (not_returns_of_no_return hreturn _)
  have hmem := of_mem_sceneLines hgiven hlss
  obtain ⟨l, hl, hwithin⟩ := exists_returns_of_unlines (fun l hl => (hmem l hl).1) hscenes
  obtain ⟨s, hs, content, hcontent, rfl⟩ := (hmem l hl).2 (hwithin.mem (by simp [returns]))
  exact ⟨content, List.mem_flatMap.2 ⟨s, hs, hcontent⟩, hwithin⟩

/-- **A text of a story that is read again as itself has no carriage return in front of a line
feed.** -/
theorem normalizeBreaks_of_again {g : Game} {text : String}
    (hgiven : ∀ s ∈ g.scenes.values, s.Given) (hwrite : write g = .ok text)
    (hagain : (compile text).result = .ok g) :
    ∀ content ∈ g.contents, normalizeBreaks content.toList = content.toList := by
  intro content hcontent
  by_contra hbreaks
  have hreturns : ∀ k, ∃ content ∈ g.contents, returns (k + 1) <:+: content.toList := by
    intro k
    induction k with
    | zero => exact ⟨content, hcontent, not_not.1 (mt normalizeBreaks_eq_self hbreaks)⟩
    | succ k ih => exact exists_returns_of_again hgiven hwrite hagain ih
  -- No text is that long.
  obtain ⟨longest, hmem, hwithin⟩ := hreturns (g.contents.map fun c => c.toList.length).sum
  have hlength := hwithin.length_le
  have hle := List.le_sum_of_mem (List.mem_map_of_mem (f := fun c : String => c.toList.length) hmem)
  rw [returns, List.length_append, List.length_replicate, List.length_singleton] at hlength
  omega

/-! ## Scenes one by one -/

/-- **The scenes of a story that is read again as itself are read one by one.** -/
theorem exists_drafts_of_again {g : Game} {text : String}
    (hgiven : ∀ s ∈ g.scenes.values, s.Given) (hwrite : write g = .ok text)
    (hagain : (compile text).result = .ok g) :
    ∃ k lss, g.scenes.values.mapM sceneLines = .ok lss ∧
      List.Forall₂ (fun d s => (scene d).result = .ok s)
        (group (pieces k (List.intercalate between (lss.map (List.flatMap lines))))).drafts
        g.scenes.values := by
  obtain ⟨p, -, lss, hp, -, -, hlss, hdrafts⟩ :=
    parts_of_write hgiven (normalizeBreaks_of_again hgiven hwrite hagain) hwrite
  obtain ⟨p', ds, hp', hds, hscenes, -⟩ := compile_eq_ok hagain
  obtain rfl := Option.some.inj (hp.symm.trans hp')
  obtain ⟨-, rfl⟩ := scenesOf_eq_ok (hdrafts.symm.trans hds)
  refine ⟨p.bodyLine + 1, lss, hlss, ?_⟩
  -- As many headings are read as are written, so none of them is lost.
  have hbreak : ∀ l ∈ List.intercalate between (lss.map (List.flatMap lines)), '\n' ∉ l := by
    rw [← flatMap_lines_intercalate]
    exact unbroken_flatMap_lines _
  have hread := headings_group_pieces (p.bodyLine + 1) _ hbreak
  rw [headings_intercalate hgiven hlss, Grouping.headings] at hread
  obtain ⟨hadded, hnone⟩ := headings_foldlM_addScene hscenes
  have hempty : ((Mapping.empty : Mapping (Scene Generated)).values.map Scene.headings).sum = 0 :=
    rfl
  rw [hempty] at hadded hnone
  obtain ⟨ss, hss, hvalues⟩ := hnone (by omega)
  rwa [hvalues]

end Script

end Storyline
