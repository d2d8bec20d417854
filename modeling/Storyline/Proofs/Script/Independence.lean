import Storyline.Proofs.Script.Moved
import Storyline.Proofs.Script.Prose
import Storyline.Proofs.Script.Region

/-!
# Scenes are read on their own

Where no fence is open, a header begins anew: what stands before it has no part in what is read from
it on, and blank lines and rules in between belong to neither side.

## Main definitions

* `Piece.IsIdle`: a line that is blank or a rule
* `Grouping.Continues`: a grouping with idle lines and scenes behind it

## Main results

* `pieces_append`: lines after which no fence is open are cut on their own
* `scenesOf_append`: pieces before a header are grouped on their own
* `result_draftsOfLines_append`: so are lines before a header
* `drafts_append`: scenes are read on their own
-/

namespace Storyline.Script

open Text

/-! ## Lines in a row -/

/-- A fence that ends does so whatever follows. -/
theorem throughClosing_append_of_after {ls : List (List Char)}
    (h : Region.fence.after ls ≠ .fence) (ms : List (List Char)) :
    throughClosing (ls ++ ms) = ((throughClosing ls).1, (throughClosing ls).2 ++ ms) := by
  induction ls with
  | nil => exact absurd rfl h
  | cons l ls ih =>
    rw [Region.after_cons, Region.next] at h
    rw [List.cons_append, throughClosing, throughClosing]
    by_cases hl : closesFence l = true
    · rw [if_pos hl, if_pos hl]
    · rw [if_neg hl] at h
      rw [if_neg hl, if_neg hl, ih h]

/-- After a fence that ends, its region is that of what follows it. -/
theorem after_throughClosing {ls : List (List Char)} (h : Region.fence.after ls ≠ .fence) :
    Region.scene.after (throughClosing ls).2 ≠ .fence := by
  rw [← (Region.after_fence ls).resolve_left h]
  exact h

/-- Lines after which no fence is open are cut into pieces on their own. -/
theorem pieces_append {n : Nat} {ls : List (List Char)} (h : Region.scene.after ls ≠ .fence)
    (ms : List (List Char)) :
    pieces n (ls ++ ms) = pieces n ls ++ pieces (n + ls.length) ms := by
  -- What could reach into the lines that follow is a fence, and every fence ends before them.
  induction n, ls using pieces.induct with
  | case1 n =>
    rw [pieces_nil]
    rfl
  | case2 n l ls id hid ih =>
    rw [Region.after_cons, Region.next_of_header hid (by decide)] at h
    rw [List.cons_append, pieces_header hid, pieces_header hid, ih h, List.length_cons,
      Nat.add_right_comm]
    rfl
  | case3 n l ls hid hinfo ih =>
    rw [Region.after_cons, Region.next, hinfo] at h
    rw [List.cons_append, pieces_line hid hinfo, pieces_line hid hinfo, ih h, List.length_cons,
      Nat.add_right_comm]
    rfl
  | case4 n l ls hid name hinfo hname hclosing =>
    rw [Region.after_cons, Region.next, hinfo] at h
    exact absurd (Region.after_fence_of_open (closing?_eq_none hclosing)) h
  | case5 n l ls hid name hinfo hname content rest hclosing ih =>
    rw [Region.after_cons, Region.next, hinfo] at h
    have hrest := after_throughClosing h
    rw [(throughClosing_of_closing? hclosing).2] at hrest
    obtain ⟨closing, rfl, hcontent, hcloses⟩ := closing?_eq_some hclosing
    have hclosing' := closing?_append hcontent hcloses (rest ++ ms)
    rw [List.cons_append, List.append_assoc, List.cons_append,
      pieces_fence hid hinfo hname hclosing', pieces_fence hid hinfo hname hclosing, ih hrest]
    have hlength : n + (l :: (content ++ closing :: rest)).length =
        n + content.length + 2 + rest.length := by
      simp only [List.length_cons, List.length_append]
      omega
    rw [hlength]
    rfl
  | case6 n l ls hid info hinfo hname inside ih =>
    rw [Region.after_cons, Region.next, hinfo] at h
    have hlength : n + (l :: ls).length =
        n + (throughClosing ls).1.length + 1 + (throughClosing ls).2.length := by
      have hsplit := congrArg List.length (throughClosing_append ls)
      rw [List.length_append] at hsplit
      rw [List.length_cons, ← hsplit]
      omega
    rw [List.cons_append, pieces_plain hid hinfo hname, pieces_plain hid hinfo hname,
      throughClosing_append_of_after h, ih (after_throughClosing h), hlength, List.append_assoc]

/-! ## Idle lines -/

/-- Whether a piece is a line that is blank or a rule. -/
def Piece.IsIdle : Piece → Prop
  | .prose l => isIdle l = true
  | _ => False

theorem unclosed?_of_idle {scene : Option String} {ps : List (Nat × Piece)}
    (h : ∀ p ∈ ps, p.2.IsIdle) : unclosed? scene ps = none := by
  induction ps with
  | nil => rfl
  | cons p ps ih =>
    obtain ⟨hp, hps⟩ := List.forall_mem_cons.1 h
    obtain ⟨n, q⟩ := p
    cases q with
    | prose l => exact ih hps
    | _ => exact hp.elim

theorem isIdle_cases {l : List Char} (h : isIdle l = true) : trim l = [] ∨ trim l = rule := by
  rw [isIdle, Bool.or_eq_true] at h
  exact h.imp List.isEmpty_iff.1 beq_iff_eq.1

/-- A line that is blank or a rule has no meaning of its own. -/
theorem linePiece_of_idle {l : List Char} (h : isIdle l = true) : linePiece l = .prose l := by
  have hform : lineForm? (trim l) = none := by
    rcases isIdle_cases h with ht | ht
    · rw [ht]
      decide
    · rw [ht]
      decide
  rw [linePiece, hform]

theorem fenceInfo?_of_idle {l : List Char} (h : isIdle l = true) : fenceInfo? l = none := by
  rw [fenceInfo?]
  rcases isIdle_cases h with ht | ht
  · rw [ht]
    decide
  · rw [ht]
    decide

theorem header?_of_idle {l : List Char} (h : isIdle l = true) : header? l = none := by
  rw [Option.eq_none_iff_forall_ne_some]
  intro id hid
  obtain ⟨r, hr, -⟩ := Option.bind_eq_some_iff.1 hid
  obtain rfl := eq_append_of_after? hr
  have hmem : '#' ∈ trim (['#', ' '] ++ r) := mem_trim_of_mem List.mem_cons_self (by decide)
  rcases isIdle_cases h with ht | ht
  · rw [ht] at hmem
    exact absurd hmem (by decide)
  · rw [ht] at hmem
    exact absurd hmem (by decide)

theorem isIdle_of_mem_pieces {n : Nat} {gap : List (List Char)}
    (h : ∀ l ∈ gap, isIdle l = true) : ∀ p ∈ pieces n gap, p.2.IsIdle := by
  induction gap generalizing n with
  | nil =>
    rw [pieces_nil]
    exact List.forall_mem_nil _
  | cons l ls ih =>
    obtain ⟨hl, hls⟩ := List.forall_mem_cons.1 h
    rw [pieces_line (header?_of_idle hl) (fenceInfo?_of_idle hl), linePiece_of_idle hl]
    exact List.forall_mem_cons.2 ⟨hl, ih hls⟩

/-- Outside of fences, idle lines change nothing. -/
theorem after_idle {r : Region} (hr : r ≠ .fence) {gap : List (List Char)}
    (h : ∀ l ∈ gap, isIdle l = true) : r.after gap = r := by
  induction gap with
  | nil => rfl
  | cons l ls ih =>
    obtain ⟨hl, hls⟩ := List.forall_mem_cons.1 h
    have hnext : r.next l = r := by
      cases r with
      | preamble => rw [Region.next, header?_of_idle hl]; rfl
      | scene => rw [Region.next, fenceInfo?_of_idle hl]; rfl
      | fence => exact absurd rfl hr
    rw [Region.after_cons, hnext]
    exact ih hls

/-- Idle lines at the end do not count. -/
theorem proseBlock?_append_idle (ps : List (Nat × List Char)) {gap : List (Nat × List Char)}
    (h : ∀ p ∈ gap, isIdle p.2 = true) : proseBlock? (ps ++ gap) = proseBlock? ps := by
  have hgap : ∀ p ∈ gap.reverse, isIdle p.2 = true := fun p hp => h p (List.mem_reverse.1 hp)
  have key : withoutIdleEnds (ps ++ gap) = withoutIdleEnds ps := by
    unfold withoutIdleEnds
    rw [List.dropWhile_append, dropWhile_eq_nil_iff_all.2 h]
    by_cases hps : (ps.dropWhile fun p => isIdle p.2).isEmpty = true
    · rw [if_pos hps, List.isEmpty_iff.1 hps]
    · rw [if_neg hps, List.reverse_append, List.dropWhile_append, dropWhile_eq_nil_iff_all.2 hgap]
      rfl
  rw [proseBlock?, key, proseBlock?]

/-! ## A header begins anew -/

/-- A grouping with idle lines and scenes behind it. -/
structure Grouping.Continues (later : List Draft) (g h : Grouping) : Prop where
  prose : ∃ gap, (∀ p ∈ gap, isIdle p.2 = true) ∧ h.prose = g.prose ++ gap
  blocks : h.blocks = g.blocks
  drafts : h.drafts = g.drafts ++ later

namespace Grouping.Continues

variable {later : List Draft} {g h : Grouping}

theorem allBlocks_eq (hc : g.Continues later h) : h.allBlocks = g.allBlocks := by
  obtain ⟨gap, hgap, hprose⟩ := hc.prose
  rw [Grouping.allBlocks, hprose, proseBlock?_append_idle _ hgap, hc.blocks, Grouping.allBlocks]

/-- One more piece in front. -/
theorem cons (hc : g.Continues later h) (p : Nat × Piece) :
    (g.cons p).Continues later (h.cons p) := by
  obtain ⟨n, q⟩ := p
  cases q with
  | header id =>
    exact ⟨⟨[], List.forall_mem_nil _, rfl⟩, rfl, by
      rw [Grouping.cons, Grouping.cons, hc.allBlocks_eq, hc.drafts]; rfl⟩
  | form f leftover =>
    exact ⟨⟨[], List.forall_mem_nil _, rfl⟩, by
      rw [Grouping.cons, Grouping.cons, hc.allBlocks_eq], hc.drafts⟩
  | prose l =>
    -- Only prose leaves the idle lines open to what stands in front.
    obtain ⟨gap, hgap, hprose⟩ := hc.prose
    exact ⟨⟨gap, hgap, congrArg ((n, l) :: ·) hprose⟩, hc.blocks, hc.drafts⟩
  | unclosed fence => exact hc

theorem foldr (hc : g.Continues later h) (ps : List (Nat × Piece)) :
    (ps.foldr Grouping.cons g).Continues later (ps.foldr Grouping.cons h) := by
  induction ps with
  | nil => exact hc
  | cons p ps ih => exact ih.cons p

end Grouping.Continues

/-- Nothing, with idle lines and then the scenes from a header on. -/
theorem continues_of_header {gap : List (Nat × Piece)} (h : ∀ p ∈ gap, p.2.IsIdle) (m : Nat)
    (id : String) (qs : List (Nat × Piece)) :
    ({} : Grouping).Continues (group ((m, .header id) :: qs)).drafts
      (group (gap ++ (m, .header id) :: qs)) := by
  induction gap with
  | nil => exact ⟨⟨[], List.forall_mem_nil _, rfl⟩, rfl, rfl⟩
  | cons p gap ih =>
    obtain ⟨hp, hgap⟩ := List.forall_mem_cons.1 h
    obtain ⟨⟨idle, hidle, hprose⟩, hblocks, hdrafts⟩ := ih hgap
    obtain ⟨n, q⟩ := p
    cases q with
    | prose l =>
      exact ⟨⟨(n, l) :: idle, List.forall_mem_cons.2 ⟨hp, hidle⟩,
        congrArg ((n, l) :: ·) hprose⟩, hblocks, hdrafts⟩
    | _ => exact hp.elim

/-- After pieces of which every fence ends, only the scene may be another. -/
theorem unclosed?_append {scene : Option String} {ps : List (Nat × Piece)}
    (h : unclosed? scene ps = none) (qs : List (Nat × Piece)) :
    ∃ last, unclosed? scene (ps ++ qs) = unclosed? last qs := by
  induction ps generalizing scene with
  | nil => exact ⟨scene, rfl⟩
  | cons p ps ih =>
    obtain ⟨n, q⟩ := p
    cases q with
    | unclosed fence => cases h
    | _ => exact ih h

/-- **Pieces before a header are grouped on their own**, and so are those from it on. -/
theorem scenesOf_append {ps gap qs : List (Nat × Piece)} (hclosed : unclosed? none ps = none)
    (hgap : ∀ p ∈ gap, p.2.IsIdle) (m : Nat) (id : String) :
    scenesOf (ps ++ (gap ++ (m, .header id) :: qs)) =
      (scenesOf ((m, .header id) :: qs)).map ((group ps).drafts ++ ·) := by
  obtain ⟨last, hlast⟩ := unclosed?_append hclosed (gap ++ (m, .header id) :: qs)
  have hprose : unclosed? last gap = none := unclosed?_of_idle hgap
  obtain ⟨scene, hscene⟩ := unclosed?_append hprose ((m, .header id) :: qs)
  -- The header names the scene of what follows, whatever the scene before it was.
  have hunclosed : unclosed? none (ps ++ (gap ++ (m, .header id) :: qs)) =
      unclosed? none ((m, .header id) :: qs) := by
    rw [hlast, hscene]
    rfl
  have hdrafts : (group (ps ++ (gap ++ (m, .header id) :: qs))).drafts =
      (group ps).drafts ++ (group ((m, .header id) :: qs)).drafts := by
    have hcontinues := (continues_of_header hgap m id qs).foldr ps
    rw [group, List.foldr_append]
    exact hcontinues.drafts
  rw [scenesOf, scenesOf, hunclosed, hdrafts]
  cases unclosed? none ((m, .header id) :: qs) <;> rfl

/-- Lines before a header are read on their own. -/
theorem result_draftsOfLines_append {n : Nat} {as gap bs : List (List Char)} {ds : List Draft}
    (hread : (draftsOfLines n as).result = .ok ds) (hclosed : Region.preamble.after as ≠ .fence)
    (hgap : ∀ l ∈ gap, isIdle l = true) (hheader : (bs.head?.bind header?).isSome = true) :
    (draftsOfLines n (as ++ (gap ++ bs))).result =
      (draftsOfLines (n + as.length + gap.length) bs).result.map (ds ++ ·) := by
  obtain ⟨l, ls, rfl⟩ : ∃ l ls, bs = l :: ls := by
    cases bs with
    | nil => cases hheader
    | cons l ls => exact ⟨l, ls, rfl⟩
  obtain ⟨id, hid⟩ := Option.isSome_iff_exists.1 hheader
  have hbs : ∀ k ∈ (l :: ls).head?, (header? k).isSome = true := by
    rintro k ⟨⟩
    exact hheader
  obtain ⟨preamble, rest, rfl, hpreamble, hrest⟩ := exists_preamble as
  rw [result_draftsOfLines hpreamble hrest] at hread
  obtain ⟨hunclosed, rfl⟩ := scenesOf_eq_ok hread
  rw [result_draftsOfLines_of_header hbs]
  cases rest with
  | nil =>
    -- Without a header before it, the gap is part of the preamble.
    have hfront : ∀ k ∈ preamble ++ gap, header? k = none :=
      List.forall_mem_append.2 ⟨hpreamble, fun k hk => header?_of_idle (hgap k hk)⟩
    rw [List.append_nil, ← List.append_assoc, result_draftsOfLines hfront hbs, pieces_nil,
      List.length_append, ← Nat.add_assoc]
    cases scenesOf (pieces (n + preamble.length + gap.length) (l :: ls)) <;> rfl
  | cons k ks =>
    obtain ⟨name, hname⟩ := Option.isSome_iff_exists.1 (hrest k rfl)
    have hopen : Region.scene.after (k :: ks) ≠ .fence := by
      rw [Region.after_of_header hname (by decide)]
      rwa [Region.after_append, Region.after_preamble hpreamble,
        Region.after_of_header hname (by decide)] at hclosed
    have hidle : Region.scene.after gap ≠ .fence := by
      rw [after_idle (by decide) hgap]
      decide
    have hall : ∀ m ∈ (k :: ks ++ (gap ++ l :: ls)).head?, (header? m).isSome = true := hrest
    rw [List.append_assoc, result_draftsOfLines hpreamble hall, pieces_append hopen,
      pieces_append hidle, pieces_header hid, scenesOf_append hunclosed
      (isIdle_of_mem_pieces hgap), ← pieces_header hid, List.length_append, ← Nat.add_assoc]

/-- The lines of a text that was joined from lines, of which there may be none. -/
theorem result_drafts_unlines {n : Nat} {ls : List (List Char)} (hbreak : ∀ l ∈ ls, '\n' ∉ l) :
    (drafts n (String.ofList (unlines ls))).result = (draftsOfLines n ls).result := by
  rw [drafts, String.toList_ofList]
  cases ls with
  | nil =>
    -- A text has one line at least, but a blank one is left out with the preamble.
    have hblank : (draftsOfLines n ([[]] ++ [])).result = scenesOf (pieces (n + 1) []) :=
      result_draftsOfLines (by decide) (by simp)
    have hnone : (draftsOfLines n []).result = scenesOf (pieces n []) :=
      result_draftsOfLines_of_header (by simp)
    rw [pieces_nil] at hblank hnone
    exact hblank.trans hnone.symm
  | cons l ls => rw [lines_unlines (List.cons_ne_nil l ls) hbreak]

/-- **Scenes are read on their own.** Let lines be read of which no fence is open at the end, and
let blank lines and rules follow, and then lines from a header on. All of them together give the
scenes of the first lines and then those of the last, which are read as if they stood alone, only
further down; and if these cannot be read, neither can all together, for the same fault. -/
theorem drafts_append {n : Nat} {as gap bs : List (List Char)} {ds : List Draft}
    (hbreak : ∀ l ∈ as ++ (gap ++ bs), '\n' ∉ l)
    (hread : (drafts n (String.ofList (unlines as))).result = .ok ds)
    (hclosed : Region.preamble.after as ≠ .fence) (hgap : ∀ l ∈ gap, isIdle l = true)
    (hheader : (bs.head?.bind header?).isSome = true) :
    (drafts n (String.ofList (unlines (as ++ (gap ++ bs))))).result =
        (drafts (n + as.length + gap.length) (String.ofList (unlines bs))).result.map (ds ++ ·) ∧
      ∀ m k, (drafts (m + k) (String.ofList (unlines bs))).result =
        ((drafts m (String.ofList (unlines bs))).result.map (List.map (Draft.moved k))).mapError
          (Fault.moved k) := by
  obtain ⟨has, hrest⟩ := List.forall_mem_append.1 hbreak
  have hbs := (List.forall_mem_append.1 hrest).2
  rw [result_drafts_unlines has] at hread
  refine ⟨?_, fun m k => ?_⟩
  · rw [result_drafts_unlines hbreak, result_drafts_unlines hbs]
    exact result_draftsOfLines_append hread hclosed hgap hheader
  · rw [drafts, drafts]
    exact result_draftsOfLines_add m k _

/-- A preamble and a scene with a fence of prose, closed. -/
def closedLines : List (List Char) :=
  ["```", "# a", "one", "---", "```py", "# x", " ``` ", "two"].map String.toList

/-- Rules and blanks between scenes. -/
def gapLines : List (List Char) :=
  ["", " ---", "---", " "].map String.toList

/-- A scene with a fence of data that does not end. -/
def openLines : List (List Char) :=
  ["# b", "* [Back] -> a", "```image-gen", "---"].map String.toList

/-- The fault of a scene is told as if the scene stood alone, further down. -/
theorem drafts_append_openLines : ∃ ds, (drafts 3 (String.ofList (unlines closedLines))).result =
    .ok ds ∧ (drafts 3 (String.ofList (unlines (closedLines ++ (gapLines ++ openLines))))).result =
      (drafts (3 + 8 + 4) (String.ofList (unlines openLines))).result.map (ds ++ ·) ∧
      (drafts (1 + 14) (String.ofList (unlines openLines))).result =
        ((drafts 1 (String.ofList (unlines openLines))).result.map
          (List.map (Draft.moved 14))).mapError (Fault.moved 14) := by
  have h : ∃ ds, (drafts 3 (String.ofList (unlines closedLines))).result = .ok ds := ⟨_, by cbv⟩
  obtain ⟨ds, hds⟩ := h
  have hbreak : ∀ l ∈ closedLines ++ (gapLines ++ openLines), '\n' ∉ l := by decide
  obtain ⟨htogether, hmoved⟩ := drafts_append hbreak hds (by decide) (by decide) (by decide)
  exact ⟨ds, hds, htogether, hmoved 1 14⟩

end Storyline.Script
