import Storyline.Proofs.Script.Placement

/-!
# Where fences are open

A script is read line by line, and what a line means depends on where it stands: before the first
header, in a scene, or inside a fence. Only the first two know headers, and only a scene knows
fences.

## Main definitions

* `Region`, `Region.after`: where a line stands, and where the line after others stands
* `Region.headers`: the headers outside every fence

## Main results

* `after_fence`: what follows an open fence, by the line that closes it
* `map_heading_group`: grouped pieces give the scenes of the headers outside every fence
* `drafts_headers`: so does a whole script, from its first header on
-/

namespace Storyline.Script

open Text

/-- Where a line of a script stands. -/
inductive Region where
  /-- Before the first header. -/
  | preamble
  /-- In a scene, outside every fence. -/
  | scene
  /-- Inside a fence. -/
  | fence
  deriving Repr, DecidableEq

namespace Region

/-- Where the line after a line stands. A header ends the preamble, a line with the mark of a fence
opens one in a scene, and an open fence ends after the line that closes it. -/
def next (l : List Char) : Region → Region
  | preamble => if (header? l).isSome then scene else preamble
  | scene => if (fenceInfo? l).isSome then fence else scene
  | fence => if closesFence l then scene else fence

/-- Where the line after lines stands. -/
def after (r : Region) : List (List Char) → Region
  | [] => r
  | l :: ls => (r.next l).after ls

/-- The scene that a line starts, where it stands. -/
def newScene? (r : Region) (l : List Char) : Option String :=
  if r = fence then none else header? l

/-- The headers outside every fence, each with its number, among lines of which the first has number
`n` and stands in the region. -/
def headers (r : Region) (n : Nat) : List (List Char) → List (String × Nat)
  | [] => []
  | l :: ls => ((r.newScene? l).map fun id => (id, n)).toList ++ (r.next l).headers (n + 1) ls

@[simp] theorem after_nil (r : Region) : r.after [] = r := rfl

@[simp] theorem after_cons (r : Region) (l : List Char) (ls : List (List Char)) :
    r.after (l :: ls) = (r.next l).after ls := rfl

theorem after_append (r : Region) (ls ms : List (List Char)) :
    r.after (ls ++ ms) = (r.after ls).after ms := by
  induction ls generalizing r with
  | nil => rfl
  | cons l ls ih => exact ih (r.next l)

theorem headers_append (r : Region) (n : Nat) (ls ms : List (List Char)) :
    r.headers n (ls ++ ms) = r.headers n ls ++ (r.after ls).headers (n + ls.length) ms := by
  induction ls generalizing r n with
  | nil => rfl
  | cons l ls ih =>
    rw [List.cons_append, headers, ih, headers, List.append_assoc, after_cons, List.length_cons,
      Nat.add_right_comm, Nat.add_assoc]

end Region

/-! ## Headers and fences -/

/-- A header opens no fence. -/
theorem fenceInfo?_of_header {l : List Char} {id : String} (h : header? l = some id) :
    fenceInfo? l = none := by
  obtain ⟨r, hr, -⟩ := Option.bind_eq_some_iff.1 h
  obtain rfl := eq_append_of_after? hr
  obtain ⟨t, ht⟩ := prefix_trim (c := '#') (by decide) (' ' :: r)
  rw [fenceInfo?, after?, if_neg, Option.map_none]
  intro hprefix
  have hmark : fenceMark <+: '#' :: ' ' :: r :=
    (List.isPrefixOf_iff_prefix.1 hprefix).trans ⟨t, ht⟩
  exact absurd (List.cons_prefix_cons.1 hmark).1 (by decide)

namespace Region

theorem next_of_header {l : List Char} {id : String} (h : header? l = some id) {r : Region}
    (hr : r ≠ fence) : r.next l = scene := by
  cases r with
  | preamble => rw [next, h]; rfl
  | scene => rw [next, fenceInfo?_of_header h]; rfl
  | fence => exact absurd rfl hr

theorem after_of_header {l : List Char} {ls : List (List Char)} {id : String}
    (h : header? l = some id) {r : Region} (hr : r ≠ fence) :
    r.after (l :: ls) = scene.after ls := by
  rw [after_cons, next_of_header h hr]

/-- Lines without a header are a preamble. -/
theorem after_preamble {ls : List (List Char)} (h : ∀ l ∈ ls, header? l = none) :
    preamble.after ls = preamble := by
  induction ls with
  | nil => rfl
  | cons l ls ih =>
    obtain ⟨hl, hls⟩ := List.forall_mem_cons.1 h
    rw [after_cons, next, hl]
    exact ih hls

theorem headers_preamble {ls : List (List Char)} (h : ∀ l ∈ ls, header? l = none)
    (n : Nat) : preamble.headers n ls = [] := by
  induction ls generalizing n with
  | nil => rfl
  | cons l ls ih =>
    obtain ⟨hl, hls⟩ := List.forall_mem_cons.1 h
    rw [headers, next, newScene?, hl]
    exact ih hls (n + 1)

/-- From a header on, it does not matter whether a scene came before. -/
theorem headers_of_header {l : List Char} {ls : List (List Char)} {id : String}
    (h : header? l = some id) {r : Region} (hr : r ≠ fence) (n : Nat) :
    r.headers n (l :: ls) = (id, n) :: scene.headers (n + 1) ls := by
  rw [headers, next_of_header h hr, newScene?, if_neg hr, h]
  rfl

/-! ## Open fences -/

/-- A fence is open to the end, or a scene goes on after the line that closes it. -/
theorem after_fence (ls : List (List Char)) :
    fence.after ls = fence ∨ fence.after ls = scene.after (throughClosing ls).2 := by
  induction ls with
  | nil => exact .inl rfl
  | cons l ls ih =>
    rw [after_cons, next, throughClosing]
    by_cases hl : closesFence l = true
    · rw [if_pos hl, if_pos hl]
      exact .inr rfl
    · rw [if_neg hl, if_neg hl]
      exact ih

theorem after_fence_of_open {ls : List (List Char)} (h : ∀ l ∈ ls, closesFence l = false) :
    fence.after ls = fence := by
  induction ls with
  | nil => rfl
  | cons l ls ih =>
    obtain ⟨hl, hls⟩ := List.forall_mem_cons.1 h
    rw [after_cons, next, if_neg (by rw [hl]; exact Bool.false_ne_true)]
    exact ih hls

/-- No line of a fence is a header. -/
theorem headers_fence (n : Nat) (ls : List (List Char)) :
    fence.headers n ls =
      scene.headers (n + (throughClosing ls).1.length) (throughClosing ls).2 := by
  induction ls generalizing n with
  | nil => rfl
  | cons l ls ih =>
    rw [headers, next, throughClosing]
    by_cases hl : closesFence l = true
    · rw [if_pos hl, if_pos hl]
      rfl
    · rw [if_neg hl, if_neg hl]
      dsimp only
      rw [ih, List.length_cons, Nat.add_comm (throughClosing ls).1.length, ← Nat.add_assoc]
      rfl

/-- A line in a scene that is no header and opens no fence. -/
theorem headers_of_line {l : List Char} (h : header? l = none) (hf : fenceInfo? l = none)
    (n : Nat) (ls : List (List Char)) : scene.headers n (l :: ls) = scene.headers (n + 1) ls := by
  rw [headers, next, hf, newScene?, h]
  rfl

/-- A line in a scene that opens a fence. -/
theorem headers_of_opening {l : List Char} {info : String} (h : header? l = none)
    (hf : fenceInfo? l = some info) (n : Nat) (ls : List (List Char)) :
    scene.headers n (l :: ls) =
      scene.headers (n + (throughClosing ls).1.length + 1) (throughClosing ls).2 := by
  rw [headers, next, hf, newScene?, h, Nat.add_right_comm, ← headers_fence]
  rfl

end Region

/-- The line that closes a fence around data closes any other. -/
theorem throughClosing_of_closing? {ls content rest : List (List Char)}
    (h : closing? ls = some (content, rest)) :
    (throughClosing ls).1.length = content.length + 1 ∧ (throughClosing ls).2 = rest := by
  obtain ⟨closing, rfl, hcontent, hclosing⟩ := closing?_eq_some h
  clear h
  induction content with
  | nil =>
    rw [List.nil_append, throughClosing, if_pos hclosing]
    exact ⟨rfl, rfl⟩
  | cons l ls ih =>
    obtain ⟨hl, hls⟩ := List.forall_mem_cons.1 hcontent
    obtain ⟨hlength, hrest⟩ := ih hls
    rw [List.cons_append, throughClosing, if_neg (by rw [hl]; exact Bool.false_ne_true)]
    exact ⟨congrArg (· + 1) hlength, hrest⟩

/-! ## The scenes of headers -/

/-- The name of a scene and the line of its header. -/
def Draft.heading (d : Draft) : String × Nat :=
  (d.id, d.line)

theorem drafts_foldr_prose (g : Grouping) (n : Nat) (ls : List (List Char)) :
    (((ls.zipIdx n).map fun p => (p.2, Piece.prose p.1)).foldr Grouping.cons g).drafts =
      g.drafts := by
  induction ls generalizing n with
  | nil => rfl
  | cons l ls ih =>
    rw [List.zipIdx_cons, List.map_cons, List.foldr_cons]
    exact ih (n + 1)

/-- The scenes of pieces are those of the headers outside every fence, unless a fence does not
end. -/
theorem map_heading_group (n : Nat) (ls : List (List Char))
    (hclosed : ∀ p ∈ pieces n ls, ∀ fence, p.2 ≠ .unclosed fence) :
    (group (pieces n ls)).drafts.map Draft.heading = Region.scene.headers n ls := by
  -- A piece is one line, or a fence with all that the region of the fence covers.
  induction n, ls using pieces.induct with
  | case1 n =>
    rw [pieces_nil]
    rfl
  | case2 n l ls id hid ih =>
    rw [pieces_header hid] at hclosed ⊢
    have h := ih (List.forall_mem_cons.1 hclosed).2
    rw [Region.headers_of_header hid (by decide), ← h]
    rfl
  | case3 n l ls hid hinfo ih =>
    rw [pieces_line hid hinfo] at hclosed ⊢
    have h := ih (List.forall_mem_cons.1 hclosed).2
    rw [Region.headers_of_line hid hinfo]
    rcases linePiece_eq l with ⟨hl, -⟩ | ⟨f, leftover, hl, -⟩
    · rw [hl]
      exact h
    · rw [hl]
      exact h
  | case4 n l ls hid name hinfo hname hclosing =>
    rw [pieces_unclosed hid hinfo hname hclosing] at hclosed
    exact absurd rfl (hclosed _ List.mem_cons_self name)
  | case5 n l ls hid name hinfo hname content rest hclosing ih =>
    rw [pieces_fence hid hinfo hname hclosing] at hclosed ⊢
    have h := ih (List.forall_mem_cons.1 hclosed).2
    obtain ⟨hlength, hrest⟩ := throughClosing_of_closing? hclosing
    rw [Region.headers_of_opening hid hinfo, hlength, hrest]
    exact h
  | case6 n l ls hid info hinfo hname inside ih =>
    rw [pieces_plain hid hinfo hname] at hclosed ⊢
    have h := ih fun p hp => hclosed p (List.mem_append_right _ hp)
    rw [Region.headers_of_opening hid hinfo, group, List.foldr_append, drafts_foldr_prose]
    exact h

/-- **The scenes of a script are those of the headers outside every fence**, where the first header
ends a preamble that knows no fences. -/
theorem drafts_headers {n : Nat} {body : String} {ds : List Draft}
    (h : (drafts n body).result = .ok ds) :
    ds.map Draft.heading = Region.preamble.headers n (lines body.toList) := by
  obtain ⟨preamble, rest, hlines, hpreamble, hrest⟩ := exists_preamble (lines body.toList)
  rw [drafts, hlines, result_draftsOfLines hpreamble hrest] at h
  obtain ⟨hclosed, rfl⟩ := scenesOf_eq_ok h
  rw [map_heading_group _ _ (ne_unclosed_of_unclosed? hclosed), hlines, Region.headers_append,
    Region.headers_preamble hpreamble, Region.after_preamble hpreamble, List.nil_append]
  cases rest with
  | nil => rfl
  | cons l ls =>
    obtain ⟨id, hid⟩ := Option.isSome_iff_exists.1 (hrest l rfl)
    rw [Region.headers_of_header hid (by decide), Region.headers_of_header hid (by decide)]

/-- Headers in a fence of data and in a fence of prose do not count. -/
theorem drafts_headers_fenced : ∃ ds,
    (drafts 3 "intro\n# a\n```image-gen\n# b\n```\n ```py\n# c\n``` \n# d").result = .ok ds ∧
      ds.map Draft.heading = [("a", 4), ("d", 11)] := by
  have h : ∃ ds, (drafts 3
      "intro\n# a\n```image-gen\n# b\n```\n ```py\n# c\n``` \n# d").result = .ok ds :=
    ⟨_, by cbv⟩
  obtain ⟨ds, hds⟩ := h
  refine ⟨ds, hds, (drafts_headers hds).trans ?_⟩
  cbv

/-- If the preamble were read like a scene, a fence in it would hide the first header. -/
theorem drafts_preambleFence : ∃ ds, (drafts 1 "```\n# a").result = .ok ds ∧
    ds.map Draft.heading ≠ Region.scene.headers 1 (lines "```\n# a".toList) := by
  refine ⟨[{ id := "a", line := 2 }], by cbv, ?_⟩
  have hnone : Region.scene.headers 1 (lines "```\n# a".toList) = [] := by cbv
  rw [hnone]
  exact List.cons_ne_nil _ _

end Storyline.Script
