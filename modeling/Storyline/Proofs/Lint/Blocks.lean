import Storyline.Proofs.Lint.Parts
import Storyline.Proofs.Script.Independence
import Storyline.Proofs.Script.Normal

/-!
# The data of a script, as it is read and as it is checked

A script is read by regions: front matter, lines in front of the scenes, scenes, fences in them. A
check goes over all lines at once, and takes every mark of a fence around data for one. The two find
the same blocks of data exactly when front matter opens on the first line, and no such mark stands
in front of the scenes or in prose, as it may inside a fence of another kind.

## Main definitions

* `blocksRead`: the blocks of data that are read
* `Plain`: a piece of which no line bears the mark of a fence around data
* `Unmarked`: a script that bears such marks only where fences around data are read

## Main results

* `fenceBlocks_eq_pieces_iff`: the fences that are checked and those among the pieces of lines
* `yamlBlocks_eq_frontMatter`: front matter that opens on the first line is read as it is checked
* `yamlBlocks_eq_iff`: when the blocks that are checked are those that are read
-/

namespace Storyline.Lint

open Text Script

/-! ## Blocks that are read -/

/-- The block of data that a block of a scene is. -/
def dataBlock? (b : Block) : Option YamlBlock :=
  match b.form with
  | .fence kind body => some { kind := kind, body := body, line := b.line }
  | _ => none

/-- The fences around data in scenes. -/
def fencesRead (ds : List Draft) : List YamlBlock :=
  ds.flatMap fun d => d.blocks.filterMap dataBlock?

/-- The blocks of data that are read of a script: its front matter, and the fences around data in
its scenes. -/
def blocksRead (source : String) (p : Parts) (ds : List Draft) : List YamlBlock :=
  { kind := "frontmatter", body := p.metadata, line := metadataLine source } :: fencesRead ds

/-- Whether no line of a text bears the mark of a fence around data. -/
def UnmarkedText (content : String) : Prop :=
  ∀ l ∈ lines content.toList, mediaFence? l = none

/-- Whether a block is no text with the mark of a fence around data. -/
def UnmarkedBlock (b : Block) : Prop :=
  ∀ content, b.form = .text content → UnmarkedText content

/-- A script that bears the marks of data only where data are read: front matter opens on its first
line, and no line in front of the scenes, and no line of prose, bears the mark of a fence around
data. -/
structure Unmarked (source : String) (p : Parts) (ds : List Draft) : Prop where
  opening : ∀ l ∈ (scriptLines source).head?, opensMetadata l = true
  preamble : ∀ l ∈ (lines p.body.toList).takeWhile fun l => (header? l).isNone,
    mediaFence? l = none
  prose : ∀ d ∈ ds, ∀ b ∈ d.blocks, UnmarkedBlock b

/-! ## Marks of fences -/

theorem mediaFence?_eq_some {l : List Char} {kind : String} :
    mediaFence? l = some kind ↔ fenceInfo? l = some kind ∧ mediaFences.contains kind = true :=
  Option.filter_eq_some_iff

theorem mediaFence?_of_fenceInfo? {l : List Char} (h : fenceInfo? l = none) :
    mediaFence? l = none := by
  rw [mediaFence?, h, Option.filter_none]

theorem mediaFence?_of_header {l : List Char} {id : String} (h : header? l = some id) :
    mediaFence? l = none :=
  mediaFence?_of_fenceInfo? (fenceInfo?_of_header h)

/-- Blanks around a mark do not count. -/
theorem mediaFence?_trim (l : List Char) : mediaFence? (trim l) = mediaFence? l := by
  rw [mediaFence?, mediaFence?, fenceInfo?, fenceInfo?, trim_trim]

/-! ## Fences that are checked -/

/-- Lines go on to the first that passes the test. -/
theorem cutAt_append {ends : List Char → Bool} {ls : List (List Char)}
    (h : ∀ l ∈ ls, ends l = false) {l : List Char} (hl : ends l = true) (rest : List (List Char)) :
    cutAt ends (ls ++ l :: rest) = (ls, rest) := by
  induction ls with
  | nil => rw [List.nil_append, cutAt, if_pos hl]
  | cons k ks ih =>
    rw [List.forall_mem_cons] at h
    rw [List.cons_append, cutAt, if_neg (by simp [h.1]), ih h.2]

section

variable {n : Nat} {l : List Char} {ls : List (List Char)}

@[simp] theorem fenceBlocks_nil (n : Nat) : fenceBlocks n [] = [] := by
  rw [fenceBlocks]

theorem fenceBlocks_line (h : mediaFence? l = none) :
    fenceBlocks n (l :: ls) = fenceBlocks (n + 1) ls := by
  rw [fenceBlocks, h]

theorem fenceBlocks_opening {kind : String} (h : mediaFence? l = some kind) :
    fenceBlocks n (l :: ls) = blockOf kind n (cutAt closesFence ls).1 ::
      fenceBlocks (n + (cutAt closesFence ls).1.length + 2) (cutAt closesFence ls).2 := by
  rw [fenceBlocks, h]

/-- Lines without marks are passed over. -/
theorem fenceBlocks_append {front : List (List Char)} (h : ∀ l ∈ front, mediaFence? l = none) :
    fenceBlocks n (front ++ ls) = fenceBlocks (n + front.length) ls := by
  induction front generalizing n with
  | nil => rfl
  | cons l front ih =>
    obtain ⟨hl, hfront⟩ := List.forall_mem_cons.1 h
    rw [List.cons_append, fenceBlocks_line hl, ih hfront, List.length_cons, Nat.add_right_comm,
      Nat.add_assoc]

/-- A mark among lines opens a block among them. -/
theorem exists_fenceBlocks_append {front : List (List Char)}
    (h : ¬ ∀ l ∈ front, mediaFence? l = none) :
    ∃ b bs, fenceBlocks n (front ++ ls) = b :: bs ∧ b.line < n + front.length := by
  induction front generalizing n with
  | nil => exact absurd (List.forall_mem_nil _) h
  | cons l front ih =>
    rw [List.cons_append, List.length_cons]
    cases hl : mediaFence? l with
    | none =>
      rw [fenceBlocks_line hl]
      obtain ⟨b, bs, hbs, hline⟩ :=
        @ih (n + 1) fun hfront => h (List.forall_mem_cons.2 ⟨hl, hfront⟩)
      exact ⟨b, bs, hbs, by omega⟩
    | some kind =>
      rw [fenceBlocks_opening hl]
      exact ⟨_, _, rfl, by simp [blockOf]⟩

/-- Blocks of lines further down are those of the lines in front exactly when these have no
marks. -/
theorem fenceBlocks_append_eq_iff {front : List (List Char)} {bs : List YamlBlock}
    (hbs : ∀ b ∈ bs, n + front.length ≤ b.line) :
    fenceBlocks n (front ++ ls) = bs ↔
      (∀ l ∈ front, mediaFence? l = none) ∧ fenceBlocks (n + front.length) ls = bs := by
  by_cases hfront : ∀ l ∈ front, mediaFence? l = none
  · rw [fenceBlocks_append hfront]
    exact (and_iff_right hfront).symm
  · refine iff_of_false ?_ fun h => hfront h.1
    rintro rfl
    obtain ⟨b, tail, htail, hline⟩ := @exists_fenceBlocks_append n ls front hfront
    have hle := hbs b (htail ▸ List.mem_cons_self)
    omega

/-- The fences that are checked are of the kinds of fences around data. -/
theorem kind_mem_of_mem_fenceBlocks {b : YamlBlock} (h : b ∈ fenceBlocks n ls) :
    b.kind ∈ mediaFences := by
  induction n, ls using fenceBlocks.induct with
  | case1 n =>
    rw [fenceBlocks_nil] at h
    cases h
  | case2 n l ls hl ih =>
    rw [fenceBlocks_line hl] at h
    exact ih h
  | case3 n l ls kind hl inside ih =>
    rw [fenceBlocks_opening hl] at h
    rcases List.mem_cons.1 h with rfl | h
    · exact List.contains_iff_mem.1 (mediaFence?_eq_some.1 hl).2
    · exact ih h

end

/-! ## Fences among pieces -/

/-- The block of data that a piece is. -/
def dataPiece? (p : Nat × Piece) : Option YamlBlock :=
  match p.2 with
  | .form f _ => dataBlock? { line := p.1, form := f }
  | _ => none

theorem dataPiece?_fence (n : Nat) (kind body leftover : String) :
    dataPiece? (n, .form (.fence kind body) leftover) =
      some { kind := kind, body := body, line := n } := rfl

/-- Whether a piece is no line of prose with the mark of a fence around data. -/
def Plain : Piece → Prop
  | .prose l => mediaFence? l = none
  | _ => True

/-- Prose, line by line. -/
def proseLines (n : Nat) (ls : List (List Char)) : List (Nat × Piece) :=
  (ls.zipIdx n).map fun p => (p.2, Piece.prose p.1)

theorem proseLines_cons (n : Nat) (l : List Char) (ls : List (List Char)) :
    proseLines n (l :: ls) = (n, .prose l) :: proseLines (n + 1) ls := by
  rw [proseLines, List.zipIdx_cons, List.map_cons]
  rfl

theorem forall_mem_proseLines {n : Nat} {ls : List (List Char)} :
    (∀ p ∈ proseLines n ls, Plain p.2) ↔ ∀ l ∈ ls, mediaFence? l = none := by
  induction ls generalizing n with
  | nil => exact iff_of_true (List.forall_mem_nil _) (List.forall_mem_nil _)
  | cons l ls ih =>
    rw [proseLines_cons, List.forall_mem_cons, List.forall_mem_cons, ih]
    rfl

theorem filterMap_proseLines (n : Nat) (ls : List (List Char)) :
    (proseLines n ls).filterMap dataPiece? = [] := by
  induction ls generalizing n with
  | nil => rfl
  | cons l ls ih =>
    rw [proseLines_cons, List.filterMap_cons_none rfl]
    exact ih (n + 1)

theorem le_of_mem_proseLines {n : Nat} {ls : List (List Char)} :
    ∀ p ∈ proseLines n ls, n ≤ p.1 := by
  induction ls generalizing n with
  | nil => exact List.forall_mem_nil _
  | cons l ls ih =>
    rw [proseLines_cons, List.forall_mem_cons]
    exact ⟨Nat.le_refl n, fun p hp => Nat.le_of_succ_le (ih p hp)⟩

/-- Pieces stand on the lines they are cut from. -/
theorem le_of_mem_pieces {n : Nat} {ls : List (List Char)} : ∀ p ∈ pieces n ls, n ≤ p.1 := by
  induction n, ls using pieces.induct with
  | case1 n =>
    rw [pieces_nil]
    exact List.forall_mem_nil _
  | case2 n l ls id hid ih =>
    rw [pieces_header hid, List.forall_mem_cons]
    exact ⟨Nat.le_refl n, fun p hp => Nat.le_of_succ_le (ih p hp)⟩
  | case3 n l ls hid hinfo ih =>
    rw [pieces_line hid hinfo, List.forall_mem_cons]
    exact ⟨Nat.le_refl n, fun p hp => Nat.le_of_succ_le (ih p hp)⟩
  | case4 n l ls hid name hinfo hname hclosing =>
    rw [pieces_unclosed hid hinfo hname hclosing, List.forall_mem_singleton]
  | case5 n l ls hid name hinfo hname content rest hclosing ih =>
    rw [pieces_fence hid hinfo hname hclosing, List.forall_mem_cons]
    refine ⟨Nat.le_refl n, fun p hp => ?_⟩
    have hle := ih p hp
    omega
  | case6 n l ls hid info hinfo hname inside ih =>
    rw [pieces_plain hid hinfo hname, List.forall_mem_append]
    refine ⟨le_of_mem_proseLines, fun p hp => ?_⟩
    have hle := ih p hp
    omega

theorem line_of_dataPiece? {p : Nat × Piece} {b : YamlBlock} (h : dataPiece? p = some b) :
    b.line = p.1 := by
  obtain ⟨n, p⟩ := p
  cases p with
  | form f leftover =>
    cases f with
    | fence kind body =>
      cases h
      rfl
    | _ => cases h
  | _ => cases h

theorem le_of_mem_dataPieces {n : Nat} {ls : List (List Char)} :
    ∀ b ∈ (pieces n ls).filterMap dataPiece?, n ≤ b.line := by
  intro b hb
  obtain ⟨p, hp, hpb⟩ := List.mem_filterMap.1 hb
  rw [line_of_dataPiece? hpb]
  exact le_of_mem_pieces p hp

/-- A line of a form of its own is no fence. -/
theorem dataPiece?_linePiece (n : Nat) (l : List Char) : dataPiece? (n, linePiece l) = none := by
  rcases linePiece_eq l with ⟨hl, -⟩ | ⟨f, leftover, hl, hform⟩
  · rw [hl]
    rfl
  · rw [hl]
    have hline := onOneLine_of_lineForm? hform
    cases f with
    | fence kind body => cases hline
    | _ => rfl

/-- A line that opens no fence has no mark of one. -/
theorem plain_linePiece {l : List Char} (h : fenceInfo? l = none) : Plain (linePiece l) := by
  rcases linePiece_eq l with ⟨hl, -⟩ | ⟨f, leftover, hl, -⟩
  · rw [hl]
    exact mediaFence?_of_fenceInfo? h
  · rw [hl]
    trivial

/-- **The fences that are checked are those among the pieces of lines** exactly when no line of
prose bears the mark of a fence around data. -/
theorem fenceBlocks_eq_pieces_iff (n : Nat) (ls : List (List Char))
    (hclosed : ∀ p ∈ pieces n ls, ∀ fence, p.2 ≠ .unclosed fence) :
    fenceBlocks n ls = (pieces n ls).filterMap dataPiece? ↔ ∀ p ∈ pieces n ls, Plain p.2 := by
  induction n, ls using pieces.induct with
  | case1 n =>
    rw [fenceBlocks_nil, pieces_nil]
    exact iff_of_true rfl (List.forall_mem_nil _)
  | case2 n l ls id hid ih =>
    rw [pieces_header hid] at hclosed ⊢
    rw [fenceBlocks_line (mediaFence?_of_header hid), List.filterMap_cons_none rfl,
      List.forall_mem_cons, ih (List.forall_mem_cons.1 hclosed).2]
    exact (and_iff_right trivial).symm
  | case3 n l ls hid hinfo ih =>
    rw [pieces_line hid hinfo] at hclosed ⊢
    rw [fenceBlocks_line (mediaFence?_of_fenceInfo? hinfo),
      List.filterMap_cons_none (dataPiece?_linePiece n l), List.forall_mem_cons,
      ih (List.forall_mem_cons.1 hclosed).2]
    exact (and_iff_right (plain_linePiece hinfo)).symm
  | case4 n l ls hid name hinfo hname hclosing =>
    rw [pieces_unclosed hid hinfo hname hclosing] at hclosed
    exact absurd rfl (hclosed _ List.mem_cons_self name)
  | case5 n l ls hid name hinfo hname content rest hclosing ih =>
    rw [pieces_fence hid hinfo hname hclosing] at hclosed ⊢
    obtain ⟨closing, rfl, hinside, hcloses⟩ := closing?_eq_some hclosing
    -- Both go on to the first line that closes the fence.
    rw [fenceBlocks_opening (mediaFence?_eq_some.2 ⟨hinfo, hname⟩), cutAt_append hinside hcloses,
      List.filterMap_cons_some (dataPiece?_fence ..), List.forall_mem_cons,
      ← ih (List.forall_mem_cons.1 hclosed).2]
    constructor
    · intro h
      exact ⟨trivial, (List.cons.inj h).2⟩
    · rintro ⟨-, h⟩
      exact congrArg (_ :: ·) h
  | case6 n l ls hid info hinfo hname inside ih =>
    have hsplit : inside ++ (throughClosing ls).2 = ls := throughClosing_append ls
    rw [pieces_plain hid hinfo hname] at hclosed ⊢
    change fenceBlocks n (l :: ls) = List.filterMap dataPiece? (proseLines n (l :: inside) ++ _) ↔
      ∀ p ∈ proseLines n (l :: inside) ++ _, Plain p.2
    rw [List.filterMap_append, filterMap_proseLines, List.nil_append, List.forall_mem_append,
      forall_mem_proseLines, ← ih fun p hp => hclosed p (List.mem_append_right _ hp)]
    have hlines : l :: ls = (l :: inside) ++ (throughClosing ls).2 := by
      rw [List.cons_append, hsplit]
    -- The check looks for marks on every line of the fence, all of which are prose.
    rw [hlines, fenceBlocks_append_eq_iff]
    · rfl
    · exact le_of_mem_dataPieces

/-! ## Prose -/

theorem unmarkedBlock_text {line : Nat} {content : String} :
    UnmarkedBlock ⟨line, .text content⟩ ↔ UnmarkedText content := by
  constructor
  · exact fun h => h content rfl
  · rintro h _ ⟨⟩
    exact h

theorem forall_map_trim {ls : List (List Char)} :
    (∀ l ∈ ls.map trim, mediaFence? l = none) ↔ ∀ l ∈ ls, mediaFence? l = none := by
  rw [List.forall_mem_map]
  simp only [mediaFence?_trim]

/-- The text of lines bears the marks that the lines bear. -/
theorem unmarkedText_unlines {ls : List (List Char)} (hne : ls ≠ []) (hbreak : ∀ l ∈ ls, '\n' ∉ l)
    (hhead : ∀ l ∈ ls.head?, isIdle l = false) (hlast : ∀ l ∈ ls.getLast?, isIdle l = false) :
    UnmarkedText (String.ofList (trim (unlines ls))) ↔ ∀ l ∈ ls, mediaFence? l = none := by
  rw [UnmarkedText, String.toList_ofList, ← forall_map_trim, map_trim_lines_trim_unlines hne hbreak
    (fun l hl => not_blank_of_not_idle (hhead l hl))
    (fun l hl => not_blank_of_not_idle (hlast l hl)), forall_map_trim]

/-- The block of prose lines bears the marks that the lines bear. -/
theorem unmarked_proseBlock? {ps : List (Nat × List Char)} (hbreak : ∀ p ∈ ps, '\n' ∉ p.2) :
    (∀ b ∈ proseBlock? ps, UnmarkedBlock b) ↔ ∀ p ∈ ps, mediaFence? p.2 = none := by
  have hidle {qs : List (Nat × List Char)} (h : ∀ p ∈ qs, isIdle p.2 = true) :
      ∀ p ∈ qs, mediaFence? p.2 = none := fun p hp =>
    mediaFence?_of_fenceInfo? (fenceInfo?_of_idle (h p hp))
  obtain ⟨front, back, hps, hfront, hback, hhead, hlast⟩ := withoutIdleEnds_spec ps
  unfold proseBlock?
  generalize withoutIdleEnds ps = text at hps hhead hlast ⊢
  subst hps
  -- The idle lines at the ends bear no marks, and the others are the text.
  rw [List.forall_mem_append, List.forall_mem_append, and_iff_left (hidle hback),
    and_iff_right (hidle hfront)]
  cases text with
  | nil => exact iff_of_true (by simp) (List.forall_mem_nil _)
  | cons p ps =>
    have htext := @unmarkedText_unlines ((p :: ps).map (·.2)) (List.cons_ne_nil _ _) ?_ ?_ ?_
    · rw [List.forall_mem_map] at htext
      rw [← htext, ← @unmarkedBlock_text p.1]
      simp
    · intro l hl
      obtain ⟨q, hq, rfl⟩ := List.mem_map.1 hl
      exact hbreak q (List.mem_append_left _ (List.mem_append_right _ hq))
    · intro l hl
      cases hl
      exact hhead p rfl
    · intro l hl
      rw [List.getLast?_map] at hl
      obtain ⟨q, hq, rfl⟩ := Option.map_eq_some_iff.1 hl
      exact hlast q hq

/-! ## Groupings -/

/-- Whether no text of a grouping bears the mark of a fence around data. -/
structure UnmarkedGrouping (g : Grouping) : Prop where
  blocks : ∀ b ∈ g.allBlocks, UnmarkedBlock b
  drafts : ∀ d ∈ g.drafts, ∀ b ∈ d.blocks, UnmarkedBlock b

theorem forall_mem_allBlocks {g : Grouping} (hbreak : ∀ p ∈ g.prose, '\n' ∉ p.2) :
    (∀ b ∈ g.allBlocks, UnmarkedBlock b) ↔
      (∀ p ∈ g.prose, mediaFence? p.2 = none) ∧ ∀ b ∈ g.blocks, UnmarkedBlock b := by
  rw [Grouping.allBlocks, List.forall_mem_append, ← unmarked_proseBlock? hbreak]
  simp

/-- One more piece in front adds no mark but its own. -/
theorem unmarked_cons {g : Grouping} (hbreak : ∀ p ∈ g.prose, '\n' ∉ p.2) {p : Nat × Piece}
    (hp : p.2.Sound) :
    UnmarkedGrouping (g.cons p) ↔ Plain p.2 ∧ UnmarkedGrouping g := by
  obtain ⟨n, q⟩ := p
  cases q with
  | header id =>
    constructor
    · intro h
      obtain ⟨hblocks, hdrafts⟩ := List.forall_mem_cons.1 h.drafts
      exact ⟨trivial, hblocks, hdrafts⟩
    · rintro ⟨-, h⟩
      exact ⟨List.forall_mem_nil _, List.forall_mem_cons.2 ⟨h.blocks, h.drafts⟩⟩
  | form f leftover =>
    have hf : UnmarkedBlock ⟨n, f⟩ := by
      rintro content hcontent
      obtain ⟨-, htext⟩ := hp
      dsimp only at hcontent
      rw [hcontent] at htext
      cases htext
    constructor
    · exact fun h => ⟨trivial, (List.forall_mem_cons.1 h.blocks).2, h.drafts⟩
    · rintro ⟨-, h⟩
      exact ⟨List.forall_mem_cons.2 ⟨hf, h.blocks⟩, h.drafts⟩
  | prose l =>
    have hcons : ∀ p ∈ (g.cons (n, .prose l)).prose, '\n' ∉ p.2 :=
      List.forall_mem_cons.2 ⟨hp, hbreak⟩
    -- Prose in front of the blocks makes one more block, or lengthens the first one.
    have hblocks : (∀ b ∈ (g.cons (n, .prose l)).allBlocks, UnmarkedBlock b) ↔
        mediaFence? l = none ∧ ∀ b ∈ g.allBlocks, UnmarkedBlock b := by
      rw [forall_mem_allBlocks hcons, forall_mem_allBlocks hbreak, ← and_assoc]
      exact and_congr_left' List.forall_mem_cons
    constructor
    · intro h
      obtain ⟨hl, hg⟩ := hblocks.1 h.blocks
      exact ⟨hl, hg, h.drafts⟩
    · rintro ⟨hl, h⟩
      exact ⟨hblocks.2 ⟨hl, h.blocks⟩, h.drafts⟩
  | unclosed fence => exact (and_iff_right trivial).symm

theorem unmarked_group {ps : List (Nat × Piece)} (h : ∀ p ∈ ps, p.2.Sound) :
    UnmarkedGrouping (group ps) ↔ ∀ p ∈ ps, Plain p.2 := by
  induction ps with
  | nil =>
    exact iff_of_true ⟨List.forall_mem_nil _, List.forall_mem_nil _⟩ (List.forall_mem_nil _)
  | cons p ps ih =>
    obtain ⟨hp, hps⟩ := List.forall_mem_cons.1 h
    rw [List.forall_mem_cons, ← ih hps]
    exact unmarked_cons (sound_group hps).prose hp

theorem dataBlock?_of_proseBlock? {ps : List (Nat × List Char)} {b : Block}
    (h : proseBlock? ps = some b) : dataBlock? b = none := by
  unfold proseBlock? at h
  split at h
  · cases h
  · cases h
    rfl

theorem filterMap_allBlocks (g : Grouping) :
    g.allBlocks.filterMap dataBlock? = g.blocks.filterMap dataBlock? := by
  rw [Grouping.allBlocks, List.filterMap_append]
  cases hblock : proseBlock? g.prose with
  | none => rfl
  | some b =>
    rw [Option.toList_some, List.filterMap_cons_none (dataBlock?_of_proseBlock? hblock)]
    rfl

/-- The fences around data among pieces are those in their blocks and scenes. -/
theorem filterMap_dataPiece? (ps : List (Nat × Piece)) :
    ps.filterMap dataPiece? =
      (group ps).allBlocks.filterMap dataBlock? ++ fencesRead (group ps).drafts := by
  rw [filterMap_allBlocks]
  induction ps with
  | nil => rfl
  | cons p ps ih =>
    obtain ⟨n, q⟩ := p
    cases q with
    | header id =>
      rw [List.filterMap_cons_none rfl, ih, ← filterMap_allBlocks]
      rfl
    | form f leftover =>
      have hg : (group ((n, .form f leftover) :: ps)).blocks =
          ⟨n, f⟩ :: (group ps).allBlocks := rfl
      have hpiece : dataPiece? (n, .form f leftover) = dataBlock? ⟨n, f⟩ := rfl
      rw [hg, List.filterMap_cons, List.filterMap_cons, hpiece, filterMap_allBlocks, ih]
      cases dataBlock? ⟨n, f⟩ with
      | none => rfl
      | some b => rfl
    | prose l =>
      rw [List.filterMap_cons_none rfl]
      exact ih
    | unclosed fence =>
      rw [List.filterMap_cons_none rfl]
      exact ih

/-! ## Scripts -/

/-- **The fences that are checked are those that are read** exactly when neither the lines in front
of the scenes nor the lines of prose bear the mark of a fence around data. -/
theorem fenceBlocks_eq_fencesRead_iff {n : Nat} {ls : List (List Char)} {ds : List Draft}
    (hbreak : ∀ l ∈ ls, '\n' ∉ l) (h : (draftsOfLines n ls).result = .ok ds) :
    fenceBlocks n ls = fencesRead ds ↔
      (∀ l ∈ ls.takeWhile fun l => (header? l).isNone, mediaFence? l = none) ∧
        ∀ d ∈ ds, ∀ b ∈ d.blocks, UnmarkedBlock b := by
  obtain ⟨preamble, rest, rfl, hpreamble, hrest⟩ := exists_preamble ls
  rw [result_draftsOfLines hpreamble hrest] at h
  obtain ⟨hclosed, rfl⟩ := scenesOf_eq_ok h
  have hnone := group_pieces_of_header (n + preamble.length) hrest
  have hfences : fencesRead (group (pieces (n + preamble.length) rest)).drafts =
      (pieces (n + preamble.length) rest).filterMap dataPiece? := by
    rw [filterMap_dataPiece?, hnone]
    rfl
  have hsound : ∀ p ∈ pieces (n + preamble.length) rest, p.2.Sound := fun p hp =>
    sound_of_mem_pieces (fun l hl => hbreak l (List.mem_append_right _ hl)) hp
  have hprose : (∀ p ∈ pieces (n + preamble.length) rest, Plain p.2) ↔
      ∀ d ∈ (group (pieces (n + preamble.length) rest)).drafts, ∀ b ∈ d.blocks,
        UnmarkedBlock b := by
    rw [← unmarked_group hsound]
    exact ⟨fun h => h.drafts, fun h => ⟨hnone ▸ List.forall_mem_nil _, h⟩⟩
  rw [takeWhile_append_preamble hpreamble hrest, hfences, ← hprose,
    ← fenceBlocks_eq_pieces_iff _ _ (ne_unclosed_of_unclosed? hclosed)]
  exact fenceBlocks_append_eq_iff le_of_mem_dataPieces

/-- A blank line opens no front matter. -/
theorem opensMetadata_of_blank {marks l : List Char} (hmarks : ∀ c ∈ marks, c = '\uFEFF')
    (hl : Blank l) : opensMetadata (marks ++ l) = false := by
  have htrim : trim marks = marks := trim_of_forall fun c hc => by rw [hmarks c hc]; decide
  have hdrop : marks.dropWhile (· = '\uFEFF') = [] :=
    List.dropWhile_eq_nil_iff.2 fun c hc => decide_eq_true (hmarks c hc)
  rw [opensMetadata, trim_append_blank marks hl, htrim, hdrop]
  rfl

theorem fenceBlocks_unlines {n : Nat} {ls : List (List Char)} (hbreak : ∀ l ∈ ls, '\n' ∉ l) :
    fenceBlocks n (lines (unlines ls)) = fenceBlocks n ls := by
  cases ls with
  | nil =>
    change fenceBlocks n [[]] = _
    rw [fenceBlocks_line (by decide), fenceBlocks_nil, fenceBlocks_nil]
  | cons l ls => rw [lines_unlines (List.cons_ne_nil l ls) hbreak]

/-- Front matter that opens on the first line is read as it is checked, and the fences that are
checked are those of the lines behind it. -/
theorem yamlBlocks_eq_frontMatter {source : String} {p : Parts} (hp : split? source = some p)
    (hfirst : ∀ l ∈ (scriptLines source).head?, opensMetadata l = true) :
    yamlBlocks source =
      { kind := "frontmatter", body := p.metadata, line := metadataLine source } ::
        fenceBlocks p.bodyLine (lines p.body.toList) := by
  obtain ⟨opening, metadata, closing, body, hread, -, hclosing, hmetadata, rfl⟩ :=
    split?_eq_some hp
  obtain ⟨marks, l, ls, hmarks, hl, hscript⟩ := exists_scriptLines source
  have hopens : opensMetadata (marks ++ l) = true := hfirst _ (by rw [hscript]; rfl)
  -- Nothing stands in front of the front matter, because the first line is not blank.
  have hblank : blankFront source = [] := by
    rw [blankFront, hl]
    refine List.takeWhile_cons_of_neg fun hempty => ?_
    rw [opensMetadata_of_blank hmarks (isEmpty_trim_iff.1 hempty)] at hopens
    cases hopens
  rw [hblank, List.nil_append, hl] at hread
  obtain ⟨rfl, rfl⟩ := List.cons.inj hread
  have hbreak : ∀ k ∈ body, '\n' ∉ k := fun k hk =>
    not_mem_of_mem_lines (s := normalizeBreaks (source.toList.dropWhile (· = '\uFEFF')))
      (by rw [← readLines, hl]; simp [hk])
  rw [yamlBlocks, hscript, blocksOfLines, if_pos hopens, cutAt_append hmetadata hclosing,
    metadataLine, hblank, String.toList_ofList, fenceBlocks_unlines hbreak, List.length_nil,
    Nat.zero_add]
  rfl

/-- **The blocks of data that are checked are those that are read**, in the same order, with the
same text and on the same lines, exactly when a script bears the marks of data only where data are
read. -/
theorem yamlBlocks_eq_iff {strict : Bool} {source : String} {g : Game}
    (h : (parse strict source).result = .ok (.ok g)) :
    ∃ p ds, split? source = some p ∧ (drafts p.bodyLine p.body).result = .ok ds ∧
      (yamlBlocks source = blocksRead source p ds ↔ Unmarked source p ds) := by
  obtain ⟨p, ds, hp, hds⟩ := exists_parts_of_parse h
  refine ⟨p, ds, hp, hds, ?_⟩
  by_cases hfirst : ∀ l ∈ (scriptLines source).head?, opensMetadata l = true
  · have hiff := fenceBlocks_eq_fencesRead_iff (fun l hl => not_mem_of_mem_lines hl) hds
    rw [yamlBlocks_eq_frontMatter hp hfirst, blocksRead, List.cons_inj_right, hiff]
    exact ⟨fun ⟨hpreamble, hprose⟩ => ⟨hfirst, hpreamble, hprose⟩,
      fun hunmarked => ⟨hunmarked.preamble, hunmarked.prose⟩⟩
  · refine iff_of_false (fun heq => ?_) fun hunmarked => hfirst hunmarked.opening
    -- Without front matter on the first line, every block that is checked is a fence.
    obtain ⟨marks, l, ls, -, -, hscript⟩ := exists_scriptLines source
    have hopens : ¬ opensMetadata (marks ++ l) = true := fun hopens => hfirst <| by
      rw [hscript]
      rintro k ⟨⟩
      exact hopens
    rw [yamlBlocks, hscript, blocksOfLines, if_neg hopens] at heq
    have hmem : { kind := "frontmatter", body := p.metadata, line := metadataLine source } ∈
        fenceBlocks 1 ((marks ++ l) :: ls) := by
      rw [heq]
      exact List.mem_cons_self
    have hkind : "frontmatter" ∈ mediaFences := kind_mem_of_mem_fenceBlocks hmem
    exact absurd hkind (by decide)

/-- A fence of prose with a header inside, and a picture. -/
def sketchBody : String :=
  "intro\n# start\n```py\n# x\n```\n```image-gen\nprompt: x\n```"

def sketchDraft : Draft where
  id := "start"
  line := 5
  blocks := [
    { line := 6, form := .text "```py\n# x\n```" },
    { line := 9, form := .fence "image-gen" "prompt: x" }]

/-- A preamble, a fence of prose and a fence around data are checked as they are read. -/
theorem sketch_blocks :
    (∃ g, (parse false ("---\ntitle: T\n---\n" ++ sketchBody)).result = .ok (.ok g)) ∧
      ∃ p ds, split? ("---\ntitle: T\n---\n" ++ sketchBody) = some p ∧
        (drafts p.bodyLine p.body).result = .ok ds ∧
        yamlBlocks ("---\ntitle: T\n---\n" ++ sketchBody) =
          blocksRead ("---\ntitle: T\n---\n" ++ sketchBody) p ds := by
  have hparts : split? ("---\ntitle: T\n---\n" ++ sketchBody) =
      some { metadata := "title: T", body := sketchBody, bodyLine := 4 } := by decide +kernel
  have hdrafts : (drafts 4 sketchBody).result = .ok [sketchDraft] := by cbv
  obtain ⟨g, hg⟩ := exists_parse_of_isOk (by decide +kernel) hparts (by decide +kernel) hdrafts
    (by decide +kernel)
  obtain ⟨p, ds, hp, hds, hiff⟩ := yamlBlocks_eq_iff hg
  refine ⟨⟨g, hg⟩, p, ds, hp, hds, hiff.2 ?_⟩
  obtain rfl := Option.some.inj (hparts.symm.trans hp)
  obtain rfl := Except.ok.inj (hdrafts.symm.trans hds)
  -- No line but the one that opens the picture bears the mark of a fence around data.
  constructor
  · decide +kernel
  · decide +kernel
  · rw [List.forall_mem_singleton]
    refine List.forall_mem_cons.2 ⟨?_, List.forall_mem_singleton.2 ?_⟩
    · rw [unmarkedBlock_text, UnmarkedText]
      decide +kernel
    · rintro content ⟨⟩

/-- A fence of prose whose content looks like a picture. -/
def quotedBody : String :=
  "# start\n```markdown\n```image-gen\nprompt: a: b\n```\n"

/-- The mark of a fence around data is checked even inside a fence of prose, where nothing is
read. -/
theorem quoted_blocks :
    (∃ g, (parse false ("---\ntitle: T\n---\n" ++ quotedBody)).result = .ok (.ok g)) ∧
      ∀ p ds, split? ("---\ntitle: T\n---\n" ++ quotedBody) = some p →
        (drafts p.bodyLine p.body).result = .ok ds →
        yamlBlocks ("---\ntitle: T\n---\n" ++ quotedBody) ≠
          blocksRead ("---\ntitle: T\n---\n" ++ quotedBody) p ds := by
  have hparts : split? ("---\ntitle: T\n---\n" ++ quotedBody) =
      some { metadata := "title: T", body := quotedBody, bodyLine := 4 } := by decide +kernel
  have hdrafts : (drafts 4 quotedBody).result = .ok [{ id := "start", line := 4, blocks := [
      { line := 5, form := .text "```markdown\n```image-gen\nprompt: a: b\n```" }] }] := by cbv
  refine ⟨exists_parse_of_isOk (by decide +kernel) hparts (by decide +kernel) hdrafts
    (by decide +kernel), ?_⟩
  intro p ds hp hds
  obtain rfl := Option.some.inj (hparts.symm.trans hp)
  obtain rfl := Except.ok.inj (hdrafts.symm.trans hds)
  -- The front matter alone is read, but two blocks are checked.
  have hchecked : (yamlBlocks ("---\ntitle: T\n---\n" ++ quotedBody)).length = 2 := by cbv
  intro heq
  rw [heq] at hchecked
  cases hchecked

end Storyline.Lint
