import Storyline.Proofs.Script.Independence
import Storyline.Proofs.Script.Normal

/-!
# Lines without a form

What a text of a scene is made of. The lines of a text stood side by side in the script, and where
they stood none of them had a form of its own: it stood inside a fence of prose, or it was no
choice, no sound or picture and opened no fence around data. Trimming the text changes nothing of
that, but it may take away the blanks that kept its first or its last line from being a header.

## Main definitions

* `Region.Formless`: lines without a form of their own, headers aside
* `Piece.IsProse`: a line of prose
* `Form.Closes`: a form after which no fence is open
* `Form.Given`, `GivenBlocks`: forms and rows of blocks as the lines of a script give them

## Main results

* `isProse_iff`: lines are prose exactly if they have no form and none is a header
* `formless_iff_of_map_trim`, `after_eq_of_map_trim`: blanks at the ends of lines do not matter
* `given_group_pieces`, `gives_givenBlocks`: the blocks of lines, and those of a script
-/

namespace Storyline.Script

open Text

namespace Region

/-! ## Regions and blank ends -/

/-- Whether lines, of which the first stands in the region, have no form of their own, headers
aside. -/
def Formless (r : Region) : List (List Char) → Prop
  | [] => True
  | l :: ls =>
    (r = fence ∨ match fenceInfo? l with
      | none => lineForm? (trim l) = none
      | some info => info ∉ mediaFences) ∧ (r.next l).Formless ls

variable {r : Region} {ls ms : List (List Char)}

@[simp] theorem formless_nil : r.Formless [] := trivial

theorem formless_append : r.Formless (ls ++ ms) ↔ r.Formless ls ∧ (r.after ls).Formless ms := by
  induction ls generalizing r with
  | nil => simp
  | cons l ls ih => rw [List.cons_append, Formless, Formless, ih, after_cons, and_assoc]

theorem next_ne_preamble (hr : r ≠ preamble) (l : List Char) : r.next l ≠ preamble := by
  cases r with
  | preamble => exact absurd rfl hr
  | scene =>
    rw [next]
    split <;> decide
  | fence =>
    rw [next]
    split <;> decide

theorem next_eq_of_trim (hr : r ≠ preamble) {l m : List Char} (h : trim l = trim m) :
    r.next l = r.next m := by
  cases r with
  | preamble => exact absurd rfl hr
  | scene => rw [next, next, fenceInfo?, fenceInfo?, h]
  | fence => rw [next, next, closesFence, closesFence, h]

/-- After the preamble, blanks at the ends of lines do not matter to where a line stands. -/
theorem after_eq_of_map_trim (hr : r ≠ preamble) (h : ls.map trim = ms.map trim) :
    r.after ls = r.after ms := by
  induction ls generalizing r ms with
  | nil =>
    obtain rfl : ms = [] := List.map_eq_nil_iff.1 h.symm
    rfl
  | cons l ls ih =>
    obtain ⟨m, ms, rfl, hm, hms⟩ := List.map_eq_cons_iff.1 h.symm
    rw [after_cons, after_cons, next_eq_of_trim hr hm]
    exact ih (next_ne_preamble hr l) hms.symm

theorem formless_iff_of_map_trim (hr : r ≠ preamble) (h : ls.map trim = ms.map trim) :
    r.Formless ls ↔ r.Formless ms := by
  induction ls generalizing r ms with
  | nil =>
    obtain rfl : ms = [] := List.map_eq_nil_iff.1 h.symm
    rfl
  | cons l ls ih =>
    obtain ⟨m, ms, rfl, hm, hms⟩ := List.map_eq_cons_iff.1 h.symm
    rw [Formless, Formless, fenceInfo?, fenceInfo?, hm, next_eq_of_trim hr hm]
    exact and_congr_right fun _ => ih (next_ne_preamble hr l) hms.symm

/-- A line of a fence has no form; the fence goes on to the line that closes it. -/
theorem formless_fence (ls : List (List Char)) :
    fence.Formless ls ↔ scene.Formless (throughClosing ls).2 := by
  induction ls with
  | nil => rfl
  | cons l ls ih =>
    rw [Formless, next, throughClosing, and_iff_right (.inl rfl)]
    by_cases hl : closesFence l = true
    · rw [if_pos hl, if_pos hl]
    · rw [if_neg hl, if_neg hl]
      exact ih

/-- A line in a scene that opens no fence. -/
theorem formless_of_line {l : List Char} (hf : fenceInfo? l = none) (ls : List (List Char)) :
    scene.Formless (l :: ls) ↔ lineForm? (trim l) = none ∧ scene.Formless ls := by
  rw [Formless, next, hf]
  exact and_congr_left fun _ => or_iff_right (by decide)

/-- A line in a scene that opens a fence. -/
theorem formless_of_opening {l : List Char} {info : String} (hf : fenceInfo? l = some info)
    (ls : List (List Char)) :
    scene.Formless (l :: ls) ↔ info ∉ mediaFences ∧ scene.Formless (throughClosing ls).2 := by
  rw [Formless, next, hf, ← formless_fence]
  exact and_congr_left fun _ => or_iff_right (by decide)

/-- Whether there are headers does not depend on the number of the first line. -/
theorem headers_eq_nil_iff (m n : Nat) : r.headers m ls = [] ↔ r.headers n ls = [] := by
  induction ls generalizing r m n with
  | nil => rfl
  | cons l ls ih =>
    rw [headers, headers, List.append_eq_nil_iff, List.append_eq_nil_iff, ih (m + 1) (n + 1)]
    cases r.newScene? l <;> simp

theorem closesFence_of_idle {l : List Char} (h : isIdle l = true) : closesFence l = false := by
  rw [closesFence]
  rcases isIdle_cases h with ht | ht
  · rw [ht]
    decide
  · rw [ht]
    decide

/-- Idle lines change nothing, not even whether a fence is open. -/
theorem after_of_idle {gap : List (List Char)} (h : ∀ l ∈ gap, isIdle l = true) :
    r.after gap = r := by
  cases r with
  | fence => exact after_fence_of_open fun l hl => closesFence_of_idle (h l hl)
  | _ => exact after_idle (by decide) h

end Region

/-! ## Prose -/

/-- Whether a piece is a line of prose. -/
def Piece.IsProse : Piece → Prop
  | .prose _ => True
  | _ => False

theorem isProse_linePiece_iff {l : List Char} :
    (linePiece l).IsProse ↔ lineForm? (trim l) = none := by
  rcases linePiece_eq l with ⟨hl, hform⟩ | ⟨f, leftover, hl, hform⟩
  · rw [hl, hform]
    exact iff_of_true trivial rfl
  · rw [hl, hform]
    exact iff_of_false id nofun

/-- Lines are prose exactly if they have no form of their own and none outside a fence is a
header. -/
theorem isProse_iff (n : Nat) (ls : List (List Char)) :
    (∀ p ∈ pieces n ls, p.2.IsProse) ↔
      Region.scene.Formless ls ∧ Region.scene.headers n ls = [] := by
  induction n, ls using pieces.induct with
  | case1 n =>
    rw [pieces_nil]
    exact iff_of_true (List.forall_mem_nil _) ⟨trivial, rfl⟩
  | case2 n l ls id hid ih =>
    rw [pieces_header hid, Region.headers_of_header hid (by decide)]
    exact iff_of_false (fun h => h _ List.mem_cons_self) fun h => absurd h.2 (List.cons_ne_nil _ _)
  | case3 n l ls hid hinfo ih =>
    rw [pieces_line hid hinfo, List.forall_mem_cons, ih, isProse_linePiece_iff,
      Region.formless_of_line hinfo, Region.headers_of_line hid hinfo, and_assoc]
  | case4 n l ls hid name hinfo hname hclosing =>
    rw [pieces_unclosed hid hinfo hname hclosing, Region.formless_of_opening hinfo]
    exact iff_of_false (fun h => h _ List.mem_cons_self) fun h =>
      h.1.1 (List.contains_iff_mem.1 hname)
  | case5 n l ls hid name hinfo hname content rest hclosing ih =>
    rw [pieces_fence hid hinfo hname hclosing, Region.formless_of_opening hinfo]
    exact iff_of_false (fun h => h _ List.mem_cons_self) fun h =>
      h.1.1 (List.contains_iff_mem.1 hname)
  | case6 n l ls hid info hinfo hname inside ih =>
    have hinside : ∀ p ∈ ((l :: inside).zipIdx n).map (fun p => (p.2, Piece.prose p.1)),
        p.2.IsProse := by
      intro p hp
      obtain ⟨q, -, rfl⟩ := List.mem_map.1 hp
      trivial
    rw [pieces_plain hid hinfo hname, List.forall_mem_append, and_iff_right hinside,
      Region.formless_of_opening hinfo, Region.headers_of_opening hid hinfo,
      and_iff_right (fun hmem => hname (List.contains_iff_mem.2 hmem))]
    exact ih

/-! ## Runs of prose -/

theorem map_zipIdx_prose (n : Nat) (ls : List (List Char)) :
    (ls.zipIdx n).map (fun p => (p.2, Piece.prose p.1)) =
      (numbered n ls).map fun p => (p.1, Piece.prose p.2) := by
  induction ls generalizing n with
  | nil => rfl
  | cons l ls ih => rw [List.zipIdx_cons, List.map_cons, ih, numbered, List.map_cons]

/-- A run of prose in front of a grouping. -/
theorem foldr_prose (g : Grouping) (ps : List (Nat × List Char)) :
    (ps.map fun p => (p.1, Piece.prose p.2)).foldr Grouping.cons g =
      { g with prose := ps ++ g.prose } := by
  induction ps with
  | nil => rfl
  | cons p ps ih =>
    rw [List.map_cons, List.foldr_cons, ih]
    rfl

/-- A fence of prose takes the lines to the one that closes it, or all there are. -/
theorem after_throughClosing_cases (ls : List (List Char)) :
    Region.fence.Formless (throughClosing ls).1 ∧
      (Region.fence.after (throughClosing ls).1 = .scene ∨
        Region.fence.after (throughClosing ls).1 = .fence ∧ (throughClosing ls).2 = []) := by
  induction ls with
  | nil => exact ⟨trivial, .inr ⟨rfl, rfl⟩⟩
  | cons l ls ih =>
    rw [throughClosing]
    by_cases hl : closesFence l = true
    · rw [if_pos hl]
      exact ⟨⟨.inl rfl, trivial⟩, .inl (by rw [Region.after_cons, Region.next, if_pos hl]; rfl)⟩
    · rw [if_neg hl, Region.Formless, Region.after_cons, Region.next, if_neg hl]
      exact ⟨⟨.inl rfl, ih.1⟩, ih.2⟩

/-! ## Given blocks -/

/-- Whether no fence is open after a form. -/
def Form.Closes : Form → Prop
  | .text content => Region.scene.after (lines content.toList) ≠ .fence
  | _ => True

/-- Whether a form is as the lines of a script give it: a text has lines without a form, and what
stands on a single line is what some line says. -/
def Form.Given : Form → Prop
  | .text content => Region.scene.Formless (lines content.toList)
  | .narration url => url.toList ≠ [] ∧ ∀ c ∈ url.toList, isBlank c = false
  | .fence _ _ | .unknown _ => True
  | f => ∃ l leftover, trim l = l ∧ '\n' ∉ l ∧ lineForm? l = some (f, leftover)

/-- Blocks as lines give them, of which only the last may leave a fence open. -/
structure GivenBlocks (bs : List Block) : Prop where
  given : ∀ b ∈ bs, b.form.Given
  chain : bs.IsChain fun a _ => a.form.Closes

theorem givenBlocks_nil : GivenBlocks [] :=
  ⟨List.forall_mem_nil _, .nil⟩

theorem GivenBlocks.cons {b : Block} {bs : List Block} (h : GivenBlocks bs) (hb : b.form.Given)
    (hcloses : bs ≠ [] → b.form.Closes) : GivenBlocks (b :: bs) := by
  refine ⟨List.forall_mem_cons.2 ⟨hb, h.given⟩, List.isChain_cons.2 ⟨fun c hc => ?_, h.chain⟩⟩
  exact hcloses (List.ne_nil_of_mem (List.mem_of_head? hc))

/-- A grouping as the pieces of lines give it: the prose in front has no form, and if it leaves a
fence open, there is no block behind it. -/
structure Grouping.Given (g : Grouping) : Prop where
  breaks : ∀ p ∈ g.prose, '\n' ∉ p.2
  formless : Region.scene.Formless (g.prose.map (·.2))
  last : Region.scene.after (g.prose.map (·.2)) = .fence → g.blocks = []
  blocks : GivenBlocks g.blocks
  drafts : ∀ d ∈ g.drafts, GivenBlocks d.blocks

/-- The text of prose lines has, up to blanks at their ends, the lines that are left without the
idle ones in front and behind. -/
theorem text_of_proseBlock? {ls : List (Nat × List Char)} {b : Block}
    (hbreak : ∀ p ∈ ls, '\n' ∉ p.2) (h : proseBlock? ls = some b) :
    ∃ front kept back content, ls.map (·.2) = front ++ kept ++ back ∧
      (∀ l ∈ front, isIdle l = true) ∧ (∀ l ∈ back, isIdle l = true) ∧ kept ≠ [] ∧
      b.form = .text content ∧ (lines content.toList).map trim = kept.map trim := by
  obtain ⟨front, back, hls, hfront, hback, hhead, hlast⟩ := withoutIdleEnds_spec ls
  unfold proseBlock? at h
  split at h
  · cases h
  · next p ps hps =>
    obtain rfl := Option.some.inj h
    rw [hps] at hls hhead hlast
    have hidle {gap : List (Nat × List Char)} (hgap : ∀ q ∈ gap, isIdle q.2 = true) :
        ∀ l ∈ gap.map (·.2), isIdle l = true := by
      intro l hl
      obtain ⟨q, hq, rfl⟩ := List.mem_map.1 hl
      exact hgap q hq
    refine ⟨front.map (·.2), (p :: ps).map (·.2), back.map (·.2), _, ?_, hidle hfront, hidle hback,
      List.cons_ne_nil _ _, rfl, ?_⟩
    · rw [hls, List.map_append, List.map_append]
    rw [String.toList_ofList]
    refine map_trim_lines_trim_unlines (List.cons_ne_nil _ _) ?_ ?_ ?_
    · intro l hl
      obtain ⟨q, hq, rfl⟩ := List.mem_map.1 hl
      refine hbreak q ?_
      rw [hls]
      exact List.mem_append_left _ (List.mem_append_right _ hq)
    · intro l hl
      cases hl
      exact not_blank_of_not_idle (hhead p rfl)
    · intro l hl
      rw [List.getLast?_map] at hl
      obtain ⟨q, hq, rfl⟩ := Option.map_eq_some_iff.1 hl
      exact not_blank_of_not_idle (hlast q hq)

/-- The text of lines without a form has no form, and it leaves a fence open if and only if they
do. -/
theorem given_of_proseBlock? {ls : List (Nat × List Char)} {b : Block}
    (hbreak : ∀ p ∈ ls, '\n' ∉ p.2) (hformless : Region.scene.Formless (ls.map (·.2)))
    (h : proseBlock? ls = some b) : b.form.Given ∧
      (b.form.Closes ↔ Region.scene.after (ls.map (·.2)) ≠ .fence) := by
  obtain ⟨front, kept, back, content, hls, hfront, hback, -, hform, htrim⟩ :=
    text_of_proseBlock? hbreak h
  rw [hls, Region.formless_append, Region.formless_append, Region.after_of_idle hfront] at hformless
  rw [hls, Region.after_append, Region.after_append, Region.after_of_idle hfront,
    Region.after_of_idle hback, hform]
  unfold Form.Given Form.Closes
  dsimp only
  rw [Region.formless_iff_of_map_trim (by decide) htrim,
    Region.after_eq_of_map_trim (by decide) htrim]
  exact ⟨hformless.1.2, Iff.rfl⟩

theorem Grouping.Given.allBlocks {g : Grouping} (h : g.Given) : GivenBlocks g.allBlocks := by
  unfold Grouping.allBlocks
  cases hblock : proseBlock? g.prose with
  | none => exact h.blocks
  | some b =>
    obtain ⟨hb, hcloses⟩ := given_of_proseBlock? h.breaks h.formless hblock
    exact h.blocks.cons hb fun hne => hcloses.2 fun hopen => hne (h.last hopen)

/-! ## Given groupings -/

theorem given_of_lineForm? {l : List Char} {f : Form} {leftover : String} (htrim : trim l = l)
    (hbreak : '\n' ∉ l) (h : lineForm? l = some (f, leftover)) : f.Given := by
  rcases lineForm?_cases h with hline | ⟨-, hline | hline | hline | hline⟩
  · obtain ⟨_, _, _, -, -, -, he⟩ := choice?_eq_some hline
    cases he
    exact ⟨l, _, htrim, hbreak, h⟩
  · obtain ⟨_, _, -, -, rfl⟩ := image?_eq_some hline
    exact ⟨l, _, htrim, hbreak, h⟩
  · obtain ⟨_, _, -, -, rfl⟩ := audio?_eq_some hline
    exact ⟨l, _, htrim, hbreak, h⟩
  · obtain ⟨_, _, -, -, rfl⟩ := video?_eq_some hline
    exact ⟨l, _, htrim, hbreak, h⟩
  · obtain ⟨_, _, u, -, -, -, hempty, hblank, rfl⟩ := narration?_eq_some hline
    dsimp only [Form.Given]
    rw [String.toList_ofList]
    exact ⟨by simpa using hempty, by simpa using hblank⟩

theorem isText_of_lineForm? {l : List Char} {f : Form} {leftover : String}
    (h : lineForm? l = some (f, leftover)) : f.isText = false := by
  have hline := onOneLine_of_lineForm? h
  cases f <;> first | rfl | cases hline

theorem closes_of_isText {f : Form} (h : f.isText = false) : f.Closes := by
  cases f with
  | text content => cases h
  | _ => trivial

theorem Grouping.Given.cons_form {g : Grouping} (h : g.Given) {f : Form} (hf : f.Given)
    (htext : f.isText = false) (n : Nat) (leftover : String) :
    (g.cons (n, .form f leftover)).Given where
  breaks := List.forall_mem_nil _
  formless := trivial
  last := nofun
  blocks := h.allBlocks.cons hf fun _ => closes_of_isText htext
  drafts := h.drafts

/-- A fence of prose in front of a grouping; if it does not end, there is nothing behind it. -/
theorem Grouping.Given.append_fence {g : Grouping} (h : g.Given) (n : Nat) {l : List Char}
    {inside : List (List Char)} {info : String} (hinfo : fenceInfo? l = some info)
    (hname : info ∉ mediaFences) (hbreak : ∀ k ∈ l :: inside, '\n' ∉ k)
    (hfence : Region.fence.Formless inside)
    (hafter : Region.fence.after inside = .scene ∨ Region.fence.after inside = .fence ∧ g = {}) :
    Given { g with prose := numbered n (l :: inside) ++ g.prose } := by
  have hlines : (numbered n (l :: inside) ++ g.prose).map (·.2) =
      l :: (inside ++ g.prose.map (·.2)) := by
    rw [List.map_append, map_snd_numbered, List.cons_append]
  have hnext : Region.scene.next l = .fence := by rw [Region.next, hinfo]; rfl
  refine ⟨?_, ?_, ?_, h.blocks, h.drafts⟩
  · refine List.forall_mem_append.2 ⟨fun p hp => hbreak p.2 ?_, h.breaks⟩
    rw [← map_snd_numbered n (l :: inside)]
    exact List.mem_map_of_mem hp
  · show Region.scene.Formless ((numbered n (l :: inside) ++ g.prose).map (·.2))
    rw [hlines, Region.Formless, hinfo, hnext, Region.formless_append]
    refine ⟨.inr hname, hfence, ?_⟩
    rcases hafter with hclosed | ⟨-, rfl⟩
    · rw [hclosed]
      exact h.formless
    · trivial
  · show Region.scene.after ((numbered n (l :: inside) ++ g.prose).map (·.2)) = .fence → _
    rw [hlines, Region.after_cons, hnext, Region.after_append]
    rcases hafter with hclosed | ⟨-, rfl⟩
    · rw [hclosed]
      exact h.last
    · exact fun _ => rfl

/-- Scenes alone are given if their blocks are. -/
theorem Grouping.Given.of_drafts {ds : List Draft} (h : ∀ d ∈ ds, GivenBlocks d.blocks) :
    ({ drafts := ds } : Grouping).Given where
  breaks := List.forall_mem_nil _
  formless := trivial
  last _ := rfl
  blocks := givenBlocks_nil
  drafts := h

/-- The grouping of the pieces of lines is as these give it. -/
theorem given_group_pieces (n : Nat) (ls : List (List Char)) (hbreak : ∀ l ∈ ls, '\n' ∉ l) :
    (group (pieces n ls)).Given := by
  -- Pieces are grouped from the last one on, so each case puts one piece in front.
  induction n, ls using pieces.induct with
  | case1 n =>
    rw [pieces_nil]
    exact .of_drafts (List.forall_mem_nil _)
  | case2 n l ls id hid ih =>
    rw [pieces_header hid]
    have h := ih (List.forall_mem_cons.1 hbreak).2
    exact .of_drafts (List.forall_mem_cons.2 ⟨h.allBlocks, h.drafts⟩)
  | case3 n l ls hid hinfo ih =>
    rw [pieces_line hid hinfo]
    obtain ⟨hl, hls⟩ := List.forall_mem_cons.1 hbreak
    have h := ih hls
    rcases linePiece_eq l with ⟨hpiece, hform⟩ | ⟨f, leftover, hpiece, hform⟩
    · rw [hpiece]
      refine ⟨List.forall_mem_cons.2 ⟨hl, h.breaks⟩, ?_, ?_, h.blocks, h.drafts⟩
      · exact (Region.formless_of_line hinfo _).2 ⟨hform, h.formless⟩
      · have hnext : Region.scene.next l = .scene := by rw [Region.next, hinfo]; rfl
        show Region.scene.after (l :: _) = .fence → _
        rw [Region.after_cons, hnext]
        exact h.last
    · rw [hpiece]
      have hgiven := given_of_lineForm? (trim_trim l) (fun hmem => hl (mem_of_mem_trim hmem)) hform
      exact h.cons_form hgiven (isText_of_lineForm? hform) n leftover
  | case4 n l ls hid name hinfo hname hclosing =>
    rw [pieces_unclosed hid hinfo hname hclosing]
    exact .of_drafts (List.forall_mem_nil _)
  | case5 n l ls hid name hinfo hname content rest hclosing ih =>
    rw [pieces_fence hid hinfo hname hclosing]
    obtain ⟨closing, rfl, -⟩ := closing?_eq_some hclosing
    have h := ih fun k hk => hbreak k (by simp [hk])
    exact h.cons_form (f := .fence name _) trivial rfl n ""
  | case6 n l ls hid info hinfo hname inside ih =>
    have hsplit : inside ++ (throughClosing ls).2 = ls := throughClosing_append ls
    rw [← hsplit] at hbreak
    obtain ⟨hl, hbreak⟩ := List.forall_mem_cons.1 hbreak
    obtain ⟨hinside, hrest⟩ := List.forall_mem_append.1 hbreak
    have h := ih hrest
    rw [pieces_plain hid hinfo hname, map_zipIdx_prose, group, List.foldr_append, foldr_prose]
    obtain ⟨hfence, hafter⟩ := after_throughClosing_cases ls
    refine h.append_fence n hinfo (fun hmem => hname (List.contains_iff_mem.2 hmem))
      (List.forall_mem_cons.2 ⟨hl, hinside⟩) hfence (hafter.imp_right fun hopen => ⟨hopen.1, ?_⟩)
    rw [hopen.2, pieces_nil]
    rfl

/-- The blocks of the scenes of a script are as its lines give them. -/
theorem gives_givenBlocks (n : Nat) (body : String) :
    (drafts n body).result.Gives fun ds => ∀ d ∈ ds, GivenBlocks d.blocks := by
  intro ds h
  obtain ⟨preamble, rest, hls, hpreamble, hrest⟩ := exists_preamble (lines body.toList)
  rw [drafts, hls, result_draftsOfLines hpreamble hrest] at h
  obtain ⟨-, rfl⟩ := scenesOf_eq_ok h
  exact (given_group_pieces _ _ fun l hl =>
    not_mem_of_mem_lines (hls ▸ List.mem_append_right preamble hl)).drafts

end Storyline.Script
