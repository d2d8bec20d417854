import Mathlib
import Storyline.Proofs.Script.Line
import Storyline.Proofs.Script.Pieces
import Storyline.Proofs.Text.Trim

/-!
# Where the parts of a script stand

The headers and blocks of a script, in order, take lines of the script one after the other. Each of
them is what its lines say, and between them only blank lines and rules are left.

## Main definitions

* `Item`, `Draft.items`: a header or a block, and those of a scene in order
* `Item.StandsOn`: what an item is on the lines it takes
* `Span`, `Laid`: an item with its lines, and items that take the lines of a script in turn

## Main results

* `takes_cons_header`, `takes_cons_form`, `takes_cons_prose`: one more piece in front
* `takes_group_pieces`: the pieces of lines, grouped, take these lines in turn
* `drafts_placed`: nothing of a script is lost, doubled or put in another place
-/

namespace Storyline.Script

open Text

/-- A header of a scene or a block of one. -/
inductive Item where
  | header (id : String)
  | block (form : Form)
  deriving Repr, DecidableEq

/-- The block as an item, with its line. -/
def Block.item (b : Block) : Nat × Item :=
  (b.line, .block b.form)

/-- The items of a scene in order, each with its line. -/
def Draft.items (d : Draft) : List (Nat × Item) :=
  (d.line, .header d.id) :: d.blocks.map Block.item

/-- What an item is on the lines it takes. A text has as many lines as it takes, a fence takes the
lines of its content and two more, and everything else is a single line. -/
def Item.StandsOn (ls : List (List Char)) : Item → Prop
  | .header id => ∃ l, ls = [l] ∧ header? l = some id
  | .block (.text content) =>
    ls.length = (lines content.toList).length ∧ content.toList = trim (unlines ls)
  | .block (.fence name content) => ∃ opening inside closing,
    ls = opening :: inside ++ [closing] ∧ fenceInfo? opening = some name ∧
      mediaFences.contains name = true ∧ (∀ l ∈ inside, closesFence l = false) ∧
      closesFence closing = true ∧ content.toList = unlines inside
  | .block form => ∃ l leftover, ls = [l] ∧ lineForm? (trim l) = some (form, leftover)

/-- An item with the lines it takes, and the number of the first of them. -/
structure Span where
  line : Nat
  lines : List (List Char)
  item : Item

namespace Span

/-- The item of a span, with its line. -/
def entry (s : Span) : Nat × Item :=
  (s.line, s.item)

/-- The number of the line after a span. -/
def stop (s : Span) : Nat :=
  s.line + s.lines.length

/-- Whether a span takes the line of a number. -/
def Covers (s : Span) (k : Nat) : Prop :=
  s.line ≤ k ∧ k < s.stop

end Span

/-- The spans take the lines of which the first has number `n` in turn; the lines between them are
blank or rules. -/
inductive Laid : Nat → List Span → List (List Char) → Prop where
  | nil {n : Nat} {gap : List (List Char)} (hgap : ∀ l ∈ gap, isIdle l = true) : Laid n [] gap
  | cons {n : Nat} {gap rest : List (List Char)} {s : Span} {spans : List Span}
    (hgap : ∀ l ∈ gap, isIdle l = true) (hline : s.line = n + gap.length)
    (hstands : s.item.StandsOn s.lines) (htail : Laid s.stop spans rest) :
    Laid n (s :: spans) (gap ++ (s.lines ++ rest))

/-! ## Spans in turn -/

theorem Item.StandsOn.ne_nil {ls : List (List Char)} {i : Item} (h : i.StandsOn ls) : ls ≠ [] := by
  rintro rfl
  cases i with
  | header id =>
    obtain ⟨_, h, -⟩ := h
    cases h
  | block form =>
    cases form with
    | text content => exact lines_ne_nil _ (List.length_eq_zero_iff.1 h.1.symm)
    | fence name content =>
      obtain ⟨_, _, _, h, -⟩ := h
      cases h
    | _ =>
      obtain ⟨_, _, h, -⟩ := h
      cases h

namespace Laid

variable {n : Nat} {spans : List Span} {ls : List (List Char)}

/-- Blank lines and rules may stand in front. -/
theorem append_idle {gap : List (List Char)} (hgap : ∀ l ∈ gap, isIdle l = true)
    (h : Laid (n + gap.length) spans ls) : Laid n spans (gap ++ ls) := by
  cases h with
  | nil hidle => exact .nil (List.forall_mem_append.2 ⟨hgap, hidle⟩)
  | cons hidle hline hstands htail =>
    rw [← List.append_assoc]
    refine .cons (List.forall_mem_append.2 ⟨hgap, hidle⟩) ?_ hstands htail
    rw [hline, List.length_append, Nat.add_assoc]

/-- One more span in front. -/
theorem span {s : Span} (hstands : s.item.StandsOn s.lines) (h : Laid s.stop spans ls) :
    Laid s.line (s :: spans) (s.lines ++ ls) :=
  .cons (fun _ hl => absurd hl List.not_mem_nil) rfl hstands h

theorem le_line (h : Laid n spans ls) : ∀ s ∈ spans, n ≤ s.line := by
  induction h with
  | nil => exact fun _ hs => absurd hs List.not_mem_nil
  | @cons n gap rest s spans _ hline _ _ ih =>
    refine List.forall_mem_cons.2 ⟨by omega, fun t ht => ?_⟩
    have hstop := ih t ht
    unfold Span.stop at hstop
    omega

/-- Each span stops before the next begins. -/
theorem pairwise (h : Laid n spans ls) : spans.Pairwise fun s t => s.stop ≤ t.line := by
  induction h with
  | nil => exact .nil
  | cons _ _ _ htail ih => exact .cons htail.le_line ih

theorem lt_stop (h : Laid n spans ls) : ∀ s ∈ spans, s.line < s.stop := by
  induction h with
  | nil => exact fun _ hs => absurd hs List.not_mem_nil
  | cons _ _ hstands _ ih =>
    refine List.forall_mem_cons.2 ⟨?_, ih⟩
    exact Nat.lt_add_of_pos_right (List.length_pos_iff.2 hstands.ne_nil)

/-- Each span stands in its place. -/
theorem mem (h : Laid n spans ls) : ∀ s ∈ spans, s.item.StandsOn s.lines ∧
    ∃ before after, ls = before ++ s.lines ++ after ∧ s.line = n + before.length := by
  induction h with
  | nil => exact fun _ hs => absurd hs List.not_mem_nil
  | @cons n gap rest s spans _ hline hstands _ ih =>
    refine List.forall_mem_cons.2 ⟨⟨hstands, gap, rest, (List.append_assoc ..).symm, hline⟩, ?_⟩
    intro t ht
    obtain ⟨ht, before, after, rfl, hat⟩ := ih t ht
    refine ⟨ht, gap ++ (s.lines ++ before), after, by simp, ?_⟩
    rw [hat, Span.stop, hline, List.length_append, List.length_append]
    omega

/-- A line that is neither blank nor a rule is in a span. -/
theorem exists_covers (h : Laid n spans ls) {k : Nat} {l : List Char} (hl : ls[k]? = some l)
    (hidle : isIdle l = false) : ∃ s ∈ spans, s.Covers (n + k) := by
  induction h generalizing k with
  | nil hgap =>
    rw [hgap l (List.mem_of_getElem? hl)] at hidle
    cases hidle
  | @cons n gap rest s spans hgap hline _ _ ih =>
    rcases Nat.lt_or_ge k gap.length with hk | hk
    · rw [List.getElem?_append_left hk] at hl
      rw [hgap l (List.mem_of_getElem? hl)] at hidle
      cases hidle
    · rw [List.getElem?_append_right hk] at hl
      rcases Nat.lt_or_ge (k - gap.length) s.lines.length with hs | hs
      · refine ⟨s, List.mem_cons_self, by omega, ?_⟩
        unfold Span.stop
        omega
      · rw [List.getElem?_append_right hs] at hl
        obtain ⟨t, ht, hcovers⟩ := ih hl
        refine ⟨t, List.mem_cons_of_mem _ ht, ?_⟩
        rwa [show n + k = s.stop + (k - gap.length - s.lines.length) by
          unfold Span.stop; omega]

/-- No line is in two spans. -/
theorem covers_unique (h : Laid n spans ls) {s t : Span} (hs : s ∈ spans) (ht : t ∈ spans) {k : Nat}
    (hsk : s.Covers k) (htk : t.Covers k) : s = t := by
  have hsep : spans.Pairwise fun s t => ¬ (s.Covers k ∧ t.Covers k) := by
    refine h.pairwise.imp fun hle hboth => ?_
    have h₁ := hboth.1.2
    have h₂ := hboth.2.1
    omega
  have hsymm : Std.Symm fun s t : Span => ¬ (s.Covers k ∧ t.Covers k) :=
    ⟨fun _ _ hn hboth => hn hboth.symm⟩
  by_contra hne
  exact hsep.forall hs ht hne ⟨hsk, htk⟩

end Laid

/-! ## Prose -/

/-- Lines with their numbers. -/
def numbered (n : Nat) : List (List Char) → List (Nat × List Char)
  | [] => []
  | l :: ls => (n, l) :: numbered (n + 1) ls

theorem map_snd_numbered (n : Nat) (ls : List (List Char)) : (numbered n ls).map (·.2) = ls := by
  induction ls generalizing n with
  | nil => rfl
  | cons l ls ih => rw [numbered, List.map_cons, ih]

theorem of_numbered {n : Nat} {ls : List (List Char)}
    (h : ∀ p ∈ numbered n ls, isIdle p.2 = true) : ∀ l ∈ ls, isIdle l = true := by
  rw [← map_snd_numbered n ls]
  intro l hl
  obtain ⟨p, hp, rfl⟩ := List.mem_map.1 hl
  exact h p hp

theorem numbered_eq_append {n : Nat} {ls : List (List Char)} {ps qs : List (Nat × List Char)}
    (h : numbered n ls = ps ++ qs) : ∃ ks ms, ls = ks ++ ms ∧ ps = numbered n ks ∧
      qs = numbered (n + ks.length) ms := by
  induction ps generalizing n ls with
  | nil => exact ⟨[], ls, rfl, rfl, h.symm⟩
  | cons p ps ih =>
    cases ls with
    | nil => cases h
    | cons l ls =>
      rw [numbered, List.cons_append] at h
      obtain ⟨hp, h⟩ := List.cons.inj h
      obtain ⟨ks, ms, rfl, rfl, rfl⟩ := ih h
      refine ⟨l :: ks, ms, rfl, by rw [numbered, hp], ?_⟩
      rw [List.length_cons, Nat.add_right_comm]
      rfl

/-- Idle lines stand before and after the lines that are left without them. -/
theorem withoutIdleEnds_spec (ps : List (Nat × List Char)) :
    ∃ front back, ps = front ++ withoutIdleEnds ps ++ back ∧
      (∀ p ∈ front, isIdle p.2 = true) ∧ (∀ p ∈ back, isIdle p.2 = true) ∧
      (∀ p ∈ (withoutIdleEnds ps).head?, isIdle p.2 = false) ∧
      ∀ p ∈ (withoutIdleEnds ps).getLast?, isIdle p.2 = false := by
  let idle (p : Nat × List Char) : Bool := isIdle p.2
  have hfirst (qs : List (Nat × List Char)) : ∀ p ∈ (qs.dropWhile idle).head?, idle p = false := by
    intro p hp
    have h := List.head?_dropWhile_not idle qs
    rwa [Option.mem_def.1 hp] at h
  -- The back is cut off from the other side, by reversing what the front has left.
  have hcut : ps.dropWhile idle =
      withoutIdleEnds ps ++ ((ps.dropWhile idle).reverse.takeWhile idle).reverse := by
    unfold withoutIdleEnds
    rw [← List.reverse_append, List.takeWhile_append_dropWhile, List.reverse_reverse]
  refine ⟨ps.takeWhile idle, ((ps.dropWhile idle).reverse.takeWhile idle).reverse,
    ?_, ?_, ?_, ?_, ?_⟩
  · rw [List.append_assoc, ← hcut, List.takeWhile_append_dropWhile]
  · exact List.all_eq_true.1 List.all_takeWhile
  · exact fun p hp => List.all_eq_true.1 List.all_takeWhile p (List.mem_reverse.1 hp)
  · intro p hp
    refine hfirst ps p ?_
    rw [hcut, List.head?_append]
    exact Option.or_eq_some_iff.2 (.inl hp)
  · intro p hp
    unfold withoutIdleEnds at hp
    rw [List.getLast?_reverse] at hp
    exact hfirst _ p hp

/-- The block of prose lines is their text without the idle lines at the ends. -/
theorem proseBlock?_numbered {n : Nat} {ls : List (List Char)} {b : Block}
    (h : proseBlock? (numbered n ls) = some b) :
    ∃ front text back, ls = front ++ (text ++ back) ∧ (∀ l ∈ front, isIdle l = true) ∧
      (∀ l ∈ back, isIdle l = true) ∧ text ≠ [] ∧ (∀ l ∈ text.head?, isIdle l = false) ∧
      (∀ l ∈ text.getLast?, isIdle l = false) ∧ b.line = n + front.length ∧
      b.form = .text (String.ofList (trim (unlines text))) := by
  obtain ⟨ps, qs, hcut, hps, hqs, hhead, hlast⟩ := withoutIdleEnds_spec (numbered n ls)
  unfold proseBlock? at h
  rw [List.append_assoc] at hcut
  obtain ⟨front, rest, rfl, rfl, hrest⟩ := numbered_eq_append hcut
  obtain ⟨text, back, rfl, htext, rfl⟩ := numbered_eq_append hrest.symm
  rw [htext] at hhead hlast h
  cases text with
  | nil => cases h
  | cons l ls =>
    rw [numbered] at h
    dsimp only at h
    rw [← numbered, map_snd_numbered] at h
    cases h
    refine ⟨front, l :: ls, back, rfl, of_numbered hps, of_numbered hqs, List.cons_ne_nil l ls, ?_,
      ?_, rfl, rfl⟩
    · rintro k hk
      cases hk
      exact hhead _ rfl
    · intro k hk
      rw [← map_snd_numbered (n + front.length) (l :: ls), List.getLast?_map] at hk
      obtain ⟨p, hp, rfl⟩ := Option.map_eq_some_iff.1 hk
      exact hlast p hp

/-! ## Groupings -/

/-- The items of the blocks and scenes of a grouping. -/
def Grouping.items (g : Grouping) : List (Nat × Item) :=
  g.blocks.map Block.item ++ g.drafts.flatMap Draft.items

/-- A grouping takes lines: its prose the first ones and its items the others. -/
def Grouping.Takes (g : Grouping) (n : Nat) (ls : List (List Char)) : Prop :=
  ∃ front rest spans, ls = front ++ rest ∧ g.prose = numbered n front ∧
    Laid (n + front.length) spans rest ∧ spans.map Span.entry = g.items

theorem not_blank_of_not_idle {l : List Char} (h : isIdle l = false) : ¬ Blank l := by
  intro hb
  rw [isIdle, isEmpty_trim_iff.2 hb] at h
  cases h

/-- The items of a grouping take its lines in turn. -/
theorem Grouping.Takes.laid {g : Grouping} {n : Nat} {ls : List (List Char)}
    (hbreak : ∀ l ∈ ls, '\n' ∉ l) (h : g.Takes n ls) :
    ∃ spans, Laid n spans ls ∧
      spans.map Span.entry = g.allBlocks.map Block.item ++ g.drafts.flatMap Draft.items := by
  obtain ⟨prose, rest, spans, rfl, hprose, hlaid, hitems⟩ := h
  unfold Grouping.allBlocks
  rw [List.map_append, List.append_assoc]
  change _ = g.items at hitems
  cases hblock : proseBlock? g.prose with
  | none =>
    have hidle := proseBlock?_eq_none_iff.1 hblock
    rw [hprose] at hidle
    exact ⟨spans, hlaid.append_idle (of_numbered hidle), hitems⟩
  | some b =>
    rw [hprose] at hblock
    obtain ⟨front, text, back, rfl, hfront, hback, hne, hhead, hlast, hline, hform⟩ :=
      proseBlock?_numbered hblock
    have hlength := length_lines_trim_unlines hne
      (fun l hl => hbreak l (by simp [hl])) (fun l hl => not_blank_of_not_idle (hhead l hl))
      (fun l hl => not_blank_of_not_idle (hlast l hl))
    have hstands : (Item.block b.form).StandsOn text := by
      rw [hform]
      refine ⟨?_, String.toList_ofList⟩
      rw [String.toList_ofList, hlength]
    -- The prose before the first item becomes a span of its own, in front of the others.
    refine ⟨⟨b.line, text, .block b.form⟩ :: spans, ?_, ?_⟩
    · rw [List.append_assoc, List.append_assoc]
      refine .cons hfront hline hstands (.append_idle hback ?_)
      rw [Span.stop, hline]
      rwa [List.length_append, List.length_append, ← Nat.add_assoc, ← Nat.add_assoc] at hlaid
    · rw [List.map_cons, hitems]
      rfl

/-! ## One more piece -/

section

variable {g : Grouping} {n : Nat} {ls : List (List Char)}

theorem takes_nil : ({} : Grouping).Takes n [] :=
  ⟨[], [], [], rfl, rfl, .nil fun _ hl => absurd hl List.not_mem_nil, rfl⟩

/-- A line of prose in front of a grouping. -/
theorem takes_cons_prose {l : List Char} (h : g.Takes (n + 1) ls) :
    (g.cons (n, .prose l)).Takes n (l :: ls) := by
  obtain ⟨front, rest, spans, rfl, hprose, hlaid, hitems⟩ := h
  refine ⟨l :: front, rest, spans, rfl, congrArg _ hprose, ?_, hitems⟩
  rwa [List.length_cons, Nat.add_comm front.length, ← Nat.add_assoc]

/-- Lines of prose in front of a grouping. -/
theorem takes_append_prose {ps : List (List Char)} (h : g.Takes (n + ps.length) ls) :
    (((ps.zipIdx n).map fun p => (p.2, Piece.prose p.1)).foldr Grouping.cons g).Takes n
      (ps ++ ls) := by
  induction ps generalizing n with
  | nil => exact h
  | cons p ps ih =>
    rw [List.zipIdx_cons, List.map_cons, List.foldr_cons]
    refine takes_cons_prose (ih ?_)
    rwa [Nat.add_assoc, Nat.add_comm 1]

/-- An item in front of a grouping: what the grouping holds follows on its lines. -/
theorem takes_span {g' : Grouping} {s : Span} (hbreak : ∀ l ∈ ls, '\n' ∉ l)
    (hstands : s.item.StandsOn s.lines) (h : g.Takes s.stop ls) (hprose : g'.prose = [])
    (hitems : g'.items =
      s.entry :: (g.allBlocks.map Block.item ++ g.drafts.flatMap Draft.items)) :
    g'.Takes s.line (s.lines ++ ls) := by
  obtain ⟨spans, hlaid, hspans⟩ := h.laid hbreak
  refine ⟨[], s.lines ++ ls, s :: spans, rfl, hprose, .span hstands hlaid, ?_⟩
  rw [hitems, List.map_cons, hspans]

theorem takes_cons_header {l : List Char} {id : String} (hbreak : ∀ l ∈ ls, '\n' ∉ l)
    (hl : header? l = some id) (h : g.Takes (n + 1) ls) :
    (g.cons (n, .header id)).Takes n (l :: ls) :=
  takes_span (s := ⟨n, [l], .header id⟩) hbreak ⟨l, rfl, hl⟩ h rfl
    (by simp [Grouping.cons, Grouping.items, Draft.items, Span.entry])

theorem takes_cons_form {f : Form} {leftover : String} {taken : List (List Char)}
    (hbreak : ∀ l ∈ ls, '\n' ∉ l) (hstands : (Item.block f).StandsOn taken)
    (h : g.Takes (n + taken.length) ls) :
    (g.cons (n, .form f leftover)).Takes n (taken ++ ls) :=
  takes_span (s := ⟨n, taken, .block f⟩) hbreak hstands h rfl rfl

end

/-! ## Grouped pieces -/

theorem standsOn_of_lineForm? {l : List Char} {f : Form} {leftover : String}
    (h : lineForm? (trim l) = some (f, leftover)) : (Item.block f).StandsOn [l] := by
  have hf := onOneLine_of_lineForm? h
  cases f with
  | text content => cases hf
  | fence name content => cases hf
  | _ => exact ⟨l, leftover, rfl, h⟩

/-- The pieces of lines, grouped, take these lines in turn unless a fence does not end. -/
theorem takes_group_pieces (n : Nat) (ls : List (List Char)) (hbreak : ∀ l ∈ ls, '\n' ∉ l)
    (hclosed : ∀ p ∈ pieces n ls, ∀ fence, p.2 ≠ .unclosed fence) :
    (group (pieces n ls)).Takes n ls := by
  -- Pieces are grouped from the last one on, so each case puts one piece in front.
  induction n, ls using pieces.induct with
  | case1 n =>
    rw [pieces_nil]
    exact takes_nil
  | case2 n l ls id hid ih =>
    rw [pieces_header hid] at hclosed ⊢
    have hrest := (List.forall_mem_cons.1 hbreak).2
    exact takes_cons_header hrest hid (ih hrest (List.forall_mem_cons.1 hclosed).2)
  | case3 n l ls hid hinfo ih =>
    rw [pieces_line hid hinfo] at hclosed ⊢
    have hrest := (List.forall_mem_cons.1 hbreak).2
    have h := ih hrest (List.forall_mem_cons.1 hclosed).2
    rcases linePiece_eq l with ⟨hl, -⟩ | ⟨f, leftover, hl, hform⟩
    · rw [hl]
      exact takes_cons_prose h
    · rw [hl]
      exact takes_cons_form hrest (standsOn_of_lineForm? hform) h
  | case4 n l ls hid name hinfo hname hclosing =>
    rw [pieces_unclosed hid hinfo hname hclosing] at hclosed
    exact absurd rfl (hclosed _ List.mem_cons_self name)
  | case5 n l ls hid name hinfo hname content rest hclosing ih =>
    rw [pieces_fence hid hinfo hname hclosing] at hclosed ⊢
    obtain ⟨closing, rfl, hinside, hcloses⟩ := closing?_eq_some hclosing
    have hrest : ∀ k ∈ rest, '\n' ∉ k := fun k hk => hbreak k (by simp [hk])
    have hstands : (Item.block (.fence name (String.ofList (unlines content)))).StandsOn
        (l :: content ++ [closing]) :=
      ⟨l, content, closing, rfl, hinfo, hname, hinside, hcloses, String.toList_ofList⟩
    have hlength : n + (l :: (content ++ [closing])).length = n + content.length + 2 := by
      simp [Nat.add_assoc]
    rw [List.append_cons, ← List.cons_append]
    refine takes_cons_form hrest hstands ?_
    rw [hlength]
    exact ih hrest (List.forall_mem_cons.1 hclosed).2
  | case6 n l ls hid info hinfo hname inside ih =>
    rw [pieces_plain hid hinfo hname] at hclosed ⊢
    have hsplit := throughClosing_append ls
    have hrest : ∀ k ∈ (throughClosing ls).2, '\n' ∉ k := fun k hk =>
      hbreak k (List.mem_cons_of_mem _ (hsplit ▸ List.mem_append_right _ hk))
    have h := ih hrest fun p hp => hclosed p (List.mem_append_right _ hp)
    have hlines : l :: ls = (l :: inside) ++ (throughClosing ls).2 := by
      rw [List.cons_append, hsplit]
    rw [hlines, group, List.foldr_append]
    refine takes_append_prose ?_
    rwa [List.length_cons, ← Nat.add_assoc]

/-- A script of which every fence ends has no piece of one that does not. -/
theorem ne_unclosed_of_unclosed? {scene : Option String} {ps : List (Nat × Piece)}
    (h : unclosed? scene ps = none) : ∀ p ∈ ps, ∀ fence, p.2 ≠ .unclosed fence := by
  induction ps generalizing scene with
  | nil => exact fun _ hp => absurd hp List.not_mem_nil
  | cons p ps ih =>
    obtain ⟨n, q⟩ := p
    cases q with
    | unclosed fence => cases h
    | _ => exact List.forall_mem_cons.2 ⟨fun _ he => (by cases he), ih h⟩

/-- From a header on, the items of the grouped pieces are those of the scenes. -/
theorem group_pieces_of_header (n : Nat) {ls : List (List Char)}
    (h : ∀ l ∈ ls.head?, (header? l).isSome = true) :
    (group (pieces n ls)).allBlocks = [] := by
  cases ls with
  | nil => rw [pieces_nil]; rfl
  | cons l ls =>
    obtain ⟨id, hid⟩ := Option.isSome_iff_exists.1 (h l rfl)
    rw [pieces_header hid]
    rfl

/-- What is read of a script, with the lines in front of the first header left out. -/
theorem laid_of_draftsOfLines {n : Nat} {ls : List (List Char)} {ds : List Draft}
    (hbreak : ∀ l ∈ ls, '\n' ∉ l) (h : (draftsOfLines n ls).result = .ok ds) :
    ∃ preamble rest spans, ls = preamble ++ rest ∧ (∀ l ∈ preamble, header? l = none) ∧
      Laid (n + preamble.length) spans rest ∧ spans.map Span.entry = ds.flatMap Draft.items := by
  obtain ⟨preamble, rest, rfl, hpreamble, hhead⟩ := exists_preamble ls
  rw [result_draftsOfLines hpreamble hhead] at h
  obtain ⟨hclosed, rfl⟩ := scenesOf_eq_ok h
  have hrest : ∀ l ∈ rest, '\n' ∉ l := fun l hl => hbreak l (List.mem_append_right _ hl)
  obtain ⟨spans, hlaid, hspans⟩ := (takes_group_pieces (n + preamble.length) rest hrest
    (ne_unclosed_of_unclosed? hclosed)).laid hrest
  rw [group_pieces_of_header _ hhead] at hspans
  exact ⟨preamble, rest, spans, rfl, hpreamble, hlaid, hspans⟩

/-- **Nothing of a script is lost, doubled or put in another place.** When a script is read, its
headers and blocks in order take lines of the script in turn: their numbers grow strictly, each
stands in its place and is what its lines say, and from the first header on every line that is
neither blank nor a rule belongs to exactly one of them. -/
theorem drafts_placed {n : Nat} {body : String} {ds : List Draft}
    (h : (drafts n body).result = .ok ds) :
    ((ds.flatMap Draft.items).map Prod.fst).Pairwise (· < ·) ∧
      ∃ spans : List Span, spans.map Span.entry = ds.flatMap Draft.items ∧
        (∀ s ∈ spans, s.item.StandsOn s.lines ∧ ∃ before after,
          lines body.toList = before ++ s.lines ++ after ∧ s.line = n + before.length) ∧
        ∀ k l, (lines body.toList)[k]? = some l → isIdle l = false →
          (∃ j ≤ k, ∃ l', (lines body.toList)[j]? = some l' ∧ (header? l').isSome = true) →
            ∃! s, s ∈ spans ∧ s.Covers (n + k) := by
  obtain ⟨preamble, rest, spans, hls, hpreamble, hlaid, hspans⟩ :=
    laid_of_draftsOfLines (fun l hl => not_mem_of_mem_lines hl) h
  refine ⟨?_, spans, hspans, ?_, ?_⟩
  · rw [← hspans, List.map_map, List.pairwise_map]
    refine hlaid.pairwise.imp_of_mem fun hs _ hle => ?_
    exact Nat.lt_of_lt_of_le (hlaid.lt_stop _ hs) hle
  · intro s hs
    obtain ⟨hstands, before, after, rfl, hline⟩ := hlaid.mem s hs
    refine ⟨hstands, preamble ++ before, after, ?_, ?_⟩
    · rw [hls, List.append_assoc, List.append_assoc, List.append_assoc]
    · rw [hline, List.length_append, Nat.add_assoc]
  · rintro k l hl hidle ⟨j, hj, l', hl', hheader⟩
    rw [hls] at hl hl'
    have hk : preamble.length ≤ k := by
      refine Nat.le_trans (Nat.le_of_not_lt fun hlt => ?_) hj
      rw [List.getElem?_append_left hlt] at hl'
      rw [hpreamble l' (List.mem_of_getElem? hl')] at hheader
      cases hheader
    rw [List.getElem?_append_right hk] at hl
    obtain ⟨s, hs, hcovers⟩ := hlaid.exists_covers hl hidle
    rw [Nat.add_assoc, Nat.add_sub_cancel' hk] at hcovers
    exact ⟨s, ⟨hs, hcovers⟩, fun t ht => hlaid.covers_unique ht.1 hs ht.2 hcovers⟩

/-- A script with a preamble, a fence of data and a fence of prose is placed. -/
theorem drafts_placed_scene : ∃ ds,
    (drafts 3 "intro\n# a\n\n  one\ntwo \n---\n```image-gen\nprompt: x\n```\n```\n# b\n```\n"
      ).result = .ok ds ∧ ((ds.flatMap Draft.items).map Prod.fst).Pairwise (· < ·) := by
  have h : ∃ ds, (drafts 3
      "intro\n# a\n\n  one\ntwo \n---\n```image-gen\nprompt: x\n```\n```\n# b\n```\n"
      ).result = .ok ds := ⟨_, by cbv⟩
  obtain ⟨ds, hds⟩ := h
  exact ⟨ds, hds, (drafts_placed hds).1⟩

end Storyline.Script
