import Storyline.Proofs.Script.Pieces

/-!
# Lines further down

What is read of lines depends on the number of the first of them only in the numbers that it holds:
the same lines further down in a script give the same scenes, or the same fault, as much further
down.

## Main definitions

* `Draft.moved`, `Fault.moved`: a scene and a fault some lines further down

## Main results

* `pieces_add`, `group_map_moved`: lines further down are cut and grouped alike
* `result_draftsOfLines_add`: lines further down are read alike
-/

namespace Storyline.Script

open Text

/-- Something that stands at a line, some lines further down. -/
def moved {α : Type} (k : Nat) (p : Nat × α) : Nat × α :=
  (p.1 + k, p.2)

/-- A block some lines further down. -/
def Block.moved (k : Nat) (b : Block) : Block :=
  { b with line := b.line + k }

/-- A scene some lines further down. -/
def Draft.moved (k : Nat) (d : Draft) : Draft :=
  { d with line := d.line + k, blocks := d.blocks.map (Block.moved k) }

/-- A fault some lines further down. -/
def Fault.moved (k : Nat) (f : Fault) : Fault :=
  { f with place := { f.place with line := f.place.line.map (· + k) } }

/-- A grouping some lines further down. -/
def Grouping.moved (k : Nat) (g : Grouping) : Grouping :=
  { prose := g.prose.map (Script.moved k)
    blocks := g.blocks.map (Block.moved k)
    drafts := g.drafts.map (Draft.moved k) }

/-! ## Pieces -/

theorem map_prose_add (n k : Nat) (ls : List (List Char)) :
    (ls.zipIdx (n + k)).map (fun p => (p.2, Piece.prose p.1)) =
      ((ls.zipIdx n).map fun p => (p.2, Piece.prose p.1)).map (moved k) := by
  induction ls generalizing n with
  | nil => rfl
  | cons l ls ih =>
    rw [List.zipIdx_cons, List.zipIdx_cons, List.map_cons, List.map_cons, List.map_cons, ← ih,
      Nat.add_right_comm]
    rfl

/-- Lines further down are cut alike. -/
theorem pieces_add (n k : Nat) (ls : List (List Char)) :
    pieces (n + k) ls = (pieces n ls).map (moved k) := by
  induction n, ls using pieces.induct with
  | case1 n =>
    rw [pieces_nil, pieces_nil]
    rfl
  | case2 n l ls id hid ih =>
    rw [pieces_header hid, pieces_header hid, List.map_cons, ← ih, Nat.add_right_comm]
    rfl
  | case3 n l ls hid hinfo ih =>
    rw [pieces_line hid hinfo, pieces_line hid hinfo, List.map_cons, ← ih, Nat.add_right_comm]
    rfl
  | case4 n l ls hid name hinfo hname hclosing =>
    rw [pieces_unclosed hid hinfo hname hclosing, pieces_unclosed hid hinfo hname hclosing]
    rfl
  | case5 n l ls hid name hinfo hname content rest hclosing ih =>
    have hstart : n + k + content.length + 2 = n + content.length + 2 + k := by omega
    rw [pieces_fence hid hinfo hname hclosing, pieces_fence hid hinfo hname hclosing,
      List.map_cons, ← ih, hstart]
    rfl
  | case6 n l ls hid info hinfo hname inside ih =>
    have hstart : n + k + inside.length + 1 = n + inside.length + 1 + k := by omega
    rw [pieces_plain hid hinfo hname, pieces_plain hid hinfo hname, List.map_append, ← ih,
      map_prose_add, hstart]

/-! ## Blocks and scenes -/

theorem proseBlock?_moved (k : Nat) (ps : List (Nat × List Char)) :
    proseBlock? (ps.map (moved k)) = (proseBlock? ps).map (Block.moved k) := by
  have key : withoutIdleEnds (ps.map (moved k)) = (withoutIdleEnds ps).map (moved k) := by
    unfold withoutIdleEnds
    rw [List.dropWhile_map, ← List.map_reverse, List.dropWhile_map, ← List.map_reverse]
    rfl
  rw [proseBlock?, key, proseBlock?]
  cases withoutIdleEnds ps with
  | nil => rfl
  | cons p ps =>
    rw [List.map_cons]
    dsimp only
    rw [List.map_cons, List.map_map]
    rfl

theorem allBlocks_moved (k : Nat) (g : Grouping) :
    (g.moved k).allBlocks = g.allBlocks.map (Block.moved k) := by
  rw [Grouping.allBlocks, Grouping.moved, proseBlock?_moved, Grouping.allBlocks, List.map_append]
  cases proseBlock? g.prose <;> rfl

/-- Pieces further down are grouped alike. -/
theorem group_map_moved (k : Nat) (ps : List (Nat × Piece)) :
    group (ps.map (moved k)) = (group ps).moved k := by
  induction ps with
  | nil => rfl
  | cons p ps ih =>
    obtain ⟨n, q⟩ := p
    have hcons : group (((n, q) :: ps).map (moved k)) =
        ((group ps).moved k).cons (n + k, q) := by
      rw [← ih]
      rfl
    have hmoved := allBlocks_moved k (group ps)
    rw [hcons]
    cases q with
    | header id =>
      rw [Grouping.cons, hmoved]
      rfl
    | form f leftover =>
      rw [Grouping.cons, hmoved]
      rfl
    | prose l => rfl
    | unclosed fence => rfl

theorem unclosed?_map_moved (k : Nat) (scene : Option String) (ps : List (Nat × Piece)) :
    unclosed? scene (ps.map (moved k)) = (unclosed? scene ps).map (Fault.moved k) := by
  induction ps generalizing scene with
  | nil => rfl
  | cons p ps ih =>
    obtain ⟨n, q⟩ := p
    cases q with
    | unclosed fence => rfl
    | _ => exact ih _

/-- **Lines further down are read alike**: the scenes, or the fault, stand as much further down. -/
theorem result_draftsOfLines_add (n k : Nat) (ls : List (List Char)) :
    (draftsOfLines (n + k) ls).result =
      ((draftsOfLines n ls).result.map (List.map (Draft.moved k))).mapError (Fault.moved k) := by
  obtain ⟨preamble, rest, rfl, hpreamble, hrest⟩ := exists_preamble ls
  rw [result_draftsOfLines hpreamble hrest, result_draftsOfLines hpreamble hrest,
    Nat.add_right_comm, pieces_add, scenesOf, scenesOf, unclosed?_map_moved, group_map_moved]
  cases unclosed? none (pieces (n + preamble.length) rest) <;> rfl

end Storyline.Script
