import Storyline.Script.Line
import Storyline.Script.Fault
import Storyline.Logged

/-!
# Blocks of a script

The scenes of a script as rows of blocks: a run of prose lines, a fence with its content, or a line
of some other form, each with the line on which it starts.

The lines are first cut into pieces, of which each is a line or a whole fence.  Pieces are then
grouped into blocks and scenes.  Lines before the first scene header are left out, and among them
nothing but a header has a meaning.

## Main definitions

* `Block`, `Draft`: a block, and a scene as blocks
* `Piece`, `pieces`: the pieces of lines
* `Grouping`, `group`: pieces grouped into blocks and scenes
* `drafts`: the scenes of a script

## Main results

* `proseBlock?_eq_none_iff`: exactly the lines that are blank or rules make no block
-/

namespace Storyline.Script

open Text

/-- A block and the line on which it starts. -/
structure Block where
  line : Nat
  form : Form
  deriving Repr, DecidableEq

/-- A scene as blocks, and the line of its header. -/
structure Draft where
  id : String
  line : Nat
  blocks : List Block := []
  deriving Repr, DecidableEq

/-! ## Pieces -/

/-- A piece of a script: a line or a whole fence. -/
inductive Piece where
  | header (id : String)
  /-- A line or fence of some form, and the text on it that is left out. -/
  | form (f : Form) (leftover : String)
  | prose (line : List Char)
  /-- A fence around data that does not end. -/
  | unclosed (fence : String)
  deriving Repr, DecidableEq

/-- What stands between a fence and the line that closes it, and what follows that line. -/
def closing? : List (List Char) → Option (List (List Char) × List (List Char))
  | [] => none
  | l :: ls =>
    if closesFence l then some ([], ls)
    else (closing? ls).map fun p => (l :: p.1, p.2)

/-- The lines up to the one that closes a fence, that line included, and what follows. -/
def throughClosing : List (List Char) → List (List Char) × List (List Char)
  | [] => ([], [])
  | l :: ls =>
    if closesFence l then ([l], ls)
    else
      let p := throughClosing ls
      (l :: p.1, p.2)

theorem length_lt_of_closing? {ls : List (List Char)} {p : List (List Char) × List (List Char)}
    (h : closing? ls = some p) : p.2.length < ls.length := by
  induction ls generalizing p with
  | nil => simp [closing?] at h
  | cons l ls ih =>
    unfold closing? at h
    split at h
    · cases h
      simp
    · obtain ⟨x, hx, rfl⟩ := Option.map_eq_some_iff.1 h
      have := ih hx
      simp only [List.length_cons]
      omega

theorem throughClosing_append (ls : List (List Char)) :
    (throughClosing ls).1 ++ (throughClosing ls).2 = ls := by
  induction ls with
  | nil => rfl
  | cons l ls ih =>
    unfold throughClosing
    split
    · rfl
    · simpa using ih

theorem length_throughClosing_le (ls : List (List Char)) :
    (throughClosing ls).2.length ≤ ls.length := by
  have := congrArg List.length (throughClosing_append ls)
  rw [List.length_append] at this
  omega

/-- What a line that opens no fence and is no header stands for. -/
def linePiece (l : List Char) : Piece :=
  match lineForm? (trim l) with
  | some (f, leftover) => .form f leftover
  | none => .prose l

/-- The pieces of lines of which the first is line `n`, with the line on which each starts.  A fence
around data is one piece; the lines of any other fence are prose. -/
def pieces (n : Nat) (ls : List (List Char)) : List (Nat × Piece) :=
  match ls with
  | [] => []
  | l :: ls =>
    match header? l with
    | some id => (n, .header id) :: pieces (n + 1) ls
    | none =>
      match fenceInfo? l with
      | none => (n, linePiece l) :: pieces (n + 1) ls
      | some info =>
        if mediaFences.contains info then
          match _h : closing? ls with
          -- The rest of the script is inside the fence, so nothing of it is read.
          | none => [(n, .unclosed info)]
          | some (content, rest) =>
            (n, .form (.fence info (String.ofList (unlines content))) "") ::
              pieces (n + content.length + 2) rest
        else
          -- Inside any other fence no line has a meaning of its own.
          let inside := (throughClosing ls).1
          (l :: inside).zipIdx n |>.map (fun p => (p.2, Piece.prose p.1)) |>.append
            (pieces (n + inside.length + 1) (throughClosing ls).2)
termination_by ls.length
decreasing_by
  · simp
  · simp
  · have := length_lt_of_closing? _h
    simp only [List.length_cons] at *
    omega
  · have := length_throughClosing_le ls
    simp only [List.length_cons]
    omega

/-! ## Blocks and scenes -/

/-- Numbered lines without idle lines at both ends. -/
def withoutIdleEnds (ls : List (Nat × List Char)) : List (Nat × List Char) :=
  ((ls.dropWhile fun p => isIdle p.2).reverse.dropWhile fun p => isIdle p.2).reverse

/-- The block of a run of prose lines; lines that are blank or rules at its ends do not count. -/
def proseBlock? (ls : List (Nat × List Char)) : Option Block :=
  match withoutIdleEnds ls with
  | [] => none
  | p :: ps =>
    some { line := p.1, form := .text (String.ofList (trim (unlines ((p :: ps).map (·.2))))) }

/-- What pieces are grouped into: the prose lines in front, the blocks up to the next header, and
the scenes. -/
structure Grouping where
  prose : List (Nat × List Char) := []
  blocks : List Block := []
  drafts : List Draft := []

/-- The blocks in front, those of prose included. -/
def Grouping.allBlocks (g : Grouping) : List Block :=
  (proseBlock? g.prose).toList ++ g.blocks

/-- The grouping of one more piece in front. -/
def Grouping.cons (p : Nat × Piece) (g : Grouping) : Grouping :=
  match p.2 with
  | .header id => { drafts := { id := id, line := p.1, blocks := g.allBlocks } :: g.drafts }
  | .form f _ => { g with prose := [], blocks := { line := p.1, form := f } :: g.allBlocks }
  | .prose l => { g with prose := (p.1, l) :: g.prose }
  | .unclosed _ => g

/-- The grouping of pieces. -/
def group (ps : List (Nat × Piece)) : Grouping :=
  ps.foldr Grouping.cons {}

/-- What a piece gives cause to warn of. -/
def Piece.warning? (p : Nat × Piece) : Option Warning :=
  match p.2 with
  | .form _ leftover => if leftover.isEmpty then none else some (.textAfterChoice p.1 leftover)
  | _ => none

/-- The fence that does not end, if there is one, with its line and the scene that it is in. -/
def unclosed? (scene : Option String) : List (Nat × Piece) → Option Fault
  | [] => none
  | (_, .header id) :: ps => unclosed? (some id) ps
  | (n, .unclosed fence) :: _ =>
    some
      { cause := .unclosedFence
        place := { scene := scene, line := some n, block := some fence } }
  | _ :: ps => unclosed? scene ps

/-- The scenes of lines of which the first is line `n`. -/
def draftsOfLines (n : Nat) (ls : List (List Char)) : Logged Fault (List Draft) :=
  let preamble := ls.takeWhile fun l => (header? l).isNone
  let ignored := (preamble.zipIdx n).find? fun p => !(trim p.1).isEmpty
  let ps := pieces (n + preamble.length) (ls.drop preamble.length)
  { warnings := (ignored.map fun p => Warning.textBeforeScenes p.2).toList ++
      ps.filterMap Piece.warning?
    result := match unclosed? none ps with
      | some fault => .error fault
      | none => .ok (group ps).drafts }

/-- The scenes of a text of which the first line is line `n`. -/
def drafts (n : Nat) (body : String) : Logged Fault (List Draft) :=
  draftsOfLines n (lines body.toList)

/-! ## Facts -/

theorem dropWhile_eq_nil_iff_all {α : Type} {p : α → Bool} {xs : List α} :
    xs.dropWhile p = [] ↔ ∀ x ∈ xs, p x = true := by
  induction xs with
  | nil => simp
  | cons x xs ih => cases h : p x <;> simp_all

/-- Exactly the lines that are blank or rules make no block. -/
theorem proseBlock?_eq_none_iff {ls : List (Nat × List Char)} :
    proseBlock? ls = none ↔ ∀ p ∈ ls, isIdle p.2 = true := by
  have key : withoutIdleEnds ls = [] ↔ ∀ p ∈ ls, isIdle p.2 = true := by
    unfold withoutIdleEnds
    rw [List.reverse_eq_nil_iff, dropWhile_eq_nil_iff_all]
    constructor
    · intro h
      rw [← dropWhile_eq_nil_iff_all (p := fun p : Nat × List Char => isIdle p.2)]
      cases hd : ls.dropWhile fun p => isIdle p.2 with
      | nil => rfl
      | cons x xs =>
        have hx := h x (by rw [hd]; simp)
        have := List.head_dropWhile_not (fun p : Nat × List Char => isIdle p.2)
          (l := ls) (by rw [hd]; simp)
        simp [hd, hx] at this
    · intro h p hp
      exact h p ((List.dropWhile_sublist _).subset (List.mem_reverse.1 hp))
  rw [← key]
  unfold proseBlock?
  cases withoutIdleEnds ls <;> simp

end Storyline.Script
