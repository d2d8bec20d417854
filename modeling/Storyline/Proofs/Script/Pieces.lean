import Storyline.Script.Block

/-!
# The pieces of a script

One equation for each thing that lines can begin with.

## Main definitions

* `scenesOf`: the scenes of pieces
* `Piece.From`: a piece is what a line stands for, or a fence

## Main results

* `pieces_header`, `pieces_line`, `pieces_fence`, `pieces_plain`: the first piece of lines
* `draftsOfLines_header`: what is read of lines that begin with a header
* `exists_preamble`, `result_draftsOfLines`: what is read of lines, the preamble left out
* `closing?_eq_some`, `closing?_append`, `closing?_eq_none`: where a fence ends
* `from_of_mem_pieces`: the pieces of lines come from the lines
-/

namespace Storyline.Script

open Text

/-- The lines before the one that closes a fence do not close it. -/
theorem closing?_eq_some {ls content rest : List (List Char)}
    (h : closing? ls = some (content, rest)) :
    ∃ closing, ls = content ++ closing :: rest ∧ (∀ l ∈ content, closesFence l = false) ∧
      closesFence closing = true := by
  induction ls generalizing content rest with
  | nil => cases h
  | cons l ls ih =>
    unfold closing? at h
    split at h
    · next hl =>
      cases h
      exact ⟨l, rfl, fun _ hk => absurd hk List.not_mem_nil, hl⟩
    · next hl =>
      obtain ⟨⟨inside, after⟩, hq, he⟩ := Option.map_eq_some_iff.1 h
      cases he
      obtain ⟨closing, rfl, hinside, hclosing⟩ := ih hq
      rw [Bool.not_eq_true] at hl
      exact ⟨closing, rfl, List.forall_mem_cons.2 ⟨hl, hinside⟩, hclosing⟩

/-- A fence goes on to the first line that closes it. -/
theorem closing?_append {ls : List (List Char)} (h : ∀ l ∈ ls, closesFence l = false)
    {l : List Char} (hl : closesFence l = true) (rest : List (List Char)) :
    closing? (ls ++ l :: rest) = some (ls, rest) := by
  induction ls with
  | nil => rw [List.nil_append, closing?, if_pos hl]
  | cons k ks ih =>
    rw [List.forall_mem_cons] at h
    rw [List.cons_append, closing?, if_neg (by simp [h.1]), ih h.2]
    rfl

/-- No line after a fence that does not end closes it. -/
theorem closing?_eq_none {ls : List (List Char)} (h : closing? ls = none) :
    ∀ l ∈ ls, closesFence l = false := by
  induction ls with
  | nil => exact List.forall_mem_nil _
  | cons l ls ih =>
    unfold closing? at h
    split at h
    · cases h
    · next hl => exact List.forall_mem_cons.2 ⟨by simpa using hl, ih (Option.map_eq_none_iff.1 h)⟩

section

variable {n : Nat} {l : List Char} {ls : List (List Char)}

@[simp] theorem pieces_nil (n : Nat) : pieces n [] = [] := by
  rw [pieces]

theorem pieces_header {id : String} (h : header? l = some id) :
    pieces n (l :: ls) = (n, .header id) :: pieces (n + 1) ls := by
  rw [pieces, h]

theorem pieces_line (h : header? l = none) (hf : fenceInfo? l = none) :
    pieces n (l :: ls) = (n, linePiece l) :: pieces (n + 1) ls := by
  rw [pieces, h, hf]

theorem pieces_fence {name : String} {content rest : List (List Char)} (h : header? l = none)
    (hf : fenceInfo? l = some name) (hname : mediaFences.contains name = true)
    (hclosing : closing? ls = some (content, rest)) :
    pieces n (l :: ls) = (n, .form (.fence name (String.ofList (unlines content))) "") ::
      pieces (n + content.length + 2) rest := by
  rw [pieces, h, hf]
  dsimp only
  rw [if_pos hname]
  split
  · next hnone => rw [hnone] at hclosing; cases hclosing
  · next hsome => rw [hsome] at hclosing; cases hclosing; rfl

theorem pieces_unclosed {name : String} (h : header? l = none) (hf : fenceInfo? l = some name)
    (hname : mediaFences.contains name = true) (hclosing : closing? ls = none) :
    pieces n (l :: ls) = [(n, .unclosed name)] := by
  rw [pieces, h, hf]
  dsimp only
  rw [if_pos hname]
  split
  · rfl
  · next hsome => rw [hsome] at hclosing; cases hclosing

theorem pieces_plain {info : String} (h : header? l = none) (hf : fenceInfo? l = some info)
    (hname : ¬ mediaFences.contains info = true) :
    pieces n (l :: ls) =
      ((l :: (throughClosing ls).1).zipIdx n).map (fun p => (p.2, Piece.prose p.1)) ++
        pieces (n + (throughClosing ls).1.length + 1) (throughClosing ls).2 := by
  rw [pieces, h, hf]
  dsimp only
  rw [if_neg hname]
  rfl

theorem takeWhile_preamble {id : String} (h : header? l = some id) :
    (l :: ls).takeWhile (fun l => (header? l).isNone) = [] :=
  List.takeWhile_cons_of_neg (by rw [h]; exact Bool.false_ne_true)

/-- What is read of lines that begin with a header, if every fence ends. -/
theorem draftsOfLines_header {id : String} (h : header? l = some id)
    (hclosed : unclosed? (some id) (pieces (n + 1) ls) = none) :
    draftsOfLines n (l :: ls) = ⟨(pieces (n + 1) ls).filterMap Piece.warning?,
      .ok (⟨id, n, (group (pieces (n + 1) ls)).allBlocks⟩ ::
        (group (pieces (n + 1) ls)).drafts)⟩ := by
  unfold draftsOfLines
  dsimp only
  rw [takeWhile_preamble h, List.length_nil, List.drop_zero, Nat.add_zero, pieces_header h,
    unclosed?, hclosed]
  rfl

end

/-! ## The preamble -/

/-- Lines are those in front of the first header, and those from it on. -/
theorem exists_preamble (ls : List (List Char)) :
    ∃ preamble rest, ls = preamble ++ rest ∧ (∀ l ∈ preamble, header? l = none) ∧
      ∀ l ∈ rest.head?, (header? l).isSome = true := by
  refine ⟨ls.takeWhile fun l => (header? l).isNone, ls.dropWhile fun l => (header? l).isNone,
    List.takeWhile_append_dropWhile.symm, fun l hl => ?_, fun l hl => ?_⟩
  · exact Option.isNone_iff_eq_none.1 (List.all_eq_true.1 List.all_takeWhile l hl)
  · have hnot := List.head?_dropWhile_not (fun l => (header? l).isNone) ls
    rw [Option.mem_def.1 hl] at hnot
    exact Option.isNone_eq_false_iff.1 hnot

/-- The scenes of pieces, unless a fence does not end. -/
def scenesOf (ps : List (Nat × Piece)) : Except Fault (List Draft) :=
  match unclosed? none ps with
  | some fault => .error fault
  | none => .ok (group ps).drafts

theorem scenesOf_eq_ok {ps : List (Nat × Piece)} {ds : List Draft} (h : scenesOf ps = .ok ds) :
    unclosed? none ps = none ∧ ds = (group ps).drafts := by
  unfold scenesOf at h
  cases hclosed : unclosed? none ps with
  | some fault => rw [hclosed] at h; cases h
  | none => rw [hclosed] at h; exact ⟨rfl, (Except.ok.inj h).symm⟩

/-- The lines in front of the first header are the preamble. -/
theorem takeWhile_append_preamble {preamble rest : List (List Char)}
    (hpreamble : ∀ l ∈ preamble, header? l = none)
    (hrest : ∀ l ∈ rest.head?, (header? l).isSome = true) :
    (preamble ++ rest).takeWhile (fun l => (header? l).isNone) = preamble := by
  rw [List.takeWhile_append_of_pos fun l hl => Option.isNone_iff_eq_none.2 (hpreamble l hl)]
  cases rest with
  | nil => exact List.append_nil preamble
  | cons l ls =>
    obtain ⟨id, hid⟩ := Option.isSome_iff_exists.1 (hrest l rfl)
    rw [takeWhile_preamble hid, List.append_nil]

/-- What is read of lines, the preamble left out. -/
theorem result_draftsOfLines {n : Nat} {preamble rest : List (List Char)}
    (hpreamble : ∀ l ∈ preamble, header? l = none)
    (hrest : ∀ l ∈ rest.head?, (header? l).isSome = true) :
    (draftsOfLines n (preamble ++ rest)).result =
      scenesOf (pieces (n + preamble.length) rest) := by
  unfold draftsOfLines
  dsimp only
  rw [takeWhile_append_preamble hpreamble hrest, List.drop_left]
  rfl

theorem result_draftsOfLines_of_header {n : Nat} {ls : List (List Char)}
    (h : ∀ l ∈ ls.head?, (header? l).isSome = true) :
    (draftsOfLines n ls).result = scenesOf (pieces n ls) :=
  @result_draftsOfLines n [] ls (List.forall_mem_nil _) h

/-! ## Single lines -/

/-- A line without a meaning of its own is prose, and any other line is of its form. -/
theorem linePiece_eq (l : List Char) :
    linePiece l = .prose l ∧ lineForm? (trim l) = none ∨
      ∃ f leftover, linePiece l = .form f leftover ∧ lineForm? (trim l) = some (f, leftover) := by
  unfold linePiece
  cases lineForm? (trim l) with
  | none => exact .inl ⟨rfl, rfl⟩
  | some p => exact .inr ⟨p.1, p.2, rfl, rfl⟩

/-! ## Where pieces come from -/

/-- Whether a piece is what a line of a text stands for, or a fence. -/
def Piece.From (ls : List (List Char)) : Piece → Prop
  | .header id => ∃ l ∈ ls, header? l = some id
  | .form f leftover =>
    (∃ name content, f = .fence name content) ∨ ∃ l ∈ ls, lineForm? (trim l) = some (f, leftover)
  | .prose l => l ∈ ls
  | .unclosed _ => True

theorem Piece.From.mono {p : Piece} {ls ms : List (List Char)} (h : p.From ls) (hls : ls ⊆ ms) :
    p.From ms := by
  cases p with
  | header id =>
    obtain ⟨l, hl, hid⟩ := h
    exact ⟨l, hls hl, hid⟩
  | form f leftover =>
    rcases h with h | ⟨l, hl, hf⟩
    · exact .inl h
    · exact .inr ⟨l, hls hl, hf⟩
  | prose l => exact hls h
  | unclosed fence => trivial

/-- The pieces of lines come from the lines. -/
theorem from_of_mem_pieces {n : Nat} {ls : List (List Char)} {p : Nat × Piece}
    (h : p ∈ pieces n ls) : p.2.From ls := by
  induction n, ls using pieces.induct with
  | case1 n =>
    rw [pieces_nil] at h
    cases h
  | case2 n l ls id hid ih =>
    rw [pieces_header hid] at h
    rcases List.mem_cons.1 h with rfl | h
    · exact ⟨l, List.mem_cons_self, hid⟩
    · exact (ih h).mono (List.subset_cons_self l ls)
  | case3 n l ls hid hinfo ih =>
    rw [pieces_line hid hinfo] at h
    rcases List.mem_cons.1 h with rfl | h
    · rcases linePiece_eq l with ⟨hl, -⟩ | ⟨f, leftover, hl, hform⟩
      · rw [hl]
        exact List.mem_cons_self
      · rw [hl]
        exact .inr ⟨l, List.mem_cons_self, hform⟩
    · exact (ih h).mono (List.subset_cons_self l ls)
  | case4 n l ls hid name hinfo hname hclosing =>
    rw [pieces_unclosed hid hinfo hname hclosing] at h
    rw [List.mem_singleton.1 h]
    trivial
  | case5 n l ls hid name hinfo hname content rest hclosing ih =>
    rw [pieces_fence hid hinfo hname hclosing] at h
    rcases List.mem_cons.1 h with rfl | h
    · exact .inl ⟨_, _, rfl⟩
    · obtain ⟨closing, rfl, -⟩ := closing?_eq_some hclosing
      exact (ih h).mono fun k hk => by simp [hk]
  | case6 n l ls hid info hinfo hname inside ih =>
    have hsplit : inside ++ (throughClosing ls).2 = ls := throughClosing_append ls
    rw [pieces_plain hid hinfo hname] at h
    rcases List.mem_append.1 h with h | h
    · obtain ⟨⟨k, m⟩, hk, rfl⟩ := List.mem_map.1 h
      have hmem : k ∈ l :: inside := List.fst_mem_of_mem_zipIdx hk
      show k ∈ l :: ls
      rw [← hsplit, ← List.cons_append]
      exact List.mem_append_left _ hmem
    · refine (ih h).mono fun k hk => ?_
      rw [← hsplit, ← List.cons_append]
      exact List.mem_append_right _ hk

end Storyline.Script
