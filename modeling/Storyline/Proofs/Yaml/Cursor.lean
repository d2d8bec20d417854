import Mathlib
import Storyline.Yaml.Cursor

/-!
# Going on in a text

What a cursor has in front of it after some characters. Characters that end no line move it along
its line; other characters may move it to a later line, but never back.

## Main definitions

* `isInline`: the characters that move a cursor along its line
* `Cursor.along`: the place after such characters

## Main results

* `steps_along`: the place after characters of a line
* `line_le_steps`: a cursor goes to no earlier line
-/

namespace Storyline.Yaml

/-- Whether a character takes a column and ends no line. -/
def isInline (c : Char) : Bool :=
  !(isBreak c || c == '\uFEFF')

theorem isInline_eq_true {c : Char} (h : isInline c = true) :
    isBreak c = false ∧ (c == '\uFEFF') = false := by
  rwa [isInline, Bool.not_eq_true', Bool.or_eq_false_iff] at h

namespace Cursor

/-- The place after `n` characters of a line, with the text that is still to be read. -/
def along (c : Cursor) (n : Nat) (rest : List Char) : Cursor :=
  { rest, index := c.index + n, line := c.line, column := c.column + n }

theorem steps_add (m n : Nat) (c : Cursor) : c.steps (m + n) = (c.steps m).steps n := by
  induction m generalizing c with
  | zero => rw [Nat.zero_add, steps]
  | succ m ih => rw [Nat.succ_add, steps, steps, ih]

theorem step_eq_steps (c : Cursor) : c.step = c.steps 1 :=
  rfl

theorem step_inline {c : Cursor} {ch : Char} {r : List Char} (h : c.rest = ch :: r)
    (hch : isInline ch = true) : c.step = c.along 1 r := by
  obtain ⟨hbreak, hmark⟩ := isInline_eq_true hch
  unfold step
  rw [h]
  dsimp only
  rw [hbreak, hmark, Bool.false_and, if_neg Bool.false_ne_true, if_neg Bool.false_ne_true,
    if_neg Bool.false_ne_true]
  rfl

/-- **The place after characters of a line.** -/
theorem steps_along {c : Cursor} {w r : List Char} (h : c.rest = w ++ r)
    (hw : ∀ x ∈ w, isInline x = true) : c.steps w.length = c.along w.length r := by
  induction w generalizing c with
  | nil =>
    have hr : c.rest = r := h
    rw [List.length_nil, steps, along, ← hr]
    rfl
  | cons x w ih =>
    rw [List.length_cons, steps, step_inline (r := w ++ r) h (hw x List.mem_cons_self),
      ih (c := c.along 1 (w ++ r)) rfl fun y hy => hw y (List.mem_cons_of_mem _ hy)]
    unfold along
    dsimp only
    rw [show c.index + 1 + w.length = c.index + (w.length + 1) by omega,
      show c.column + 1 + w.length = c.column + (w.length + 1) by omega]

theorem line_le_step (c : Cursor) : c.line ≤ c.step.line := by
  unfold step
  split
  · exact le_rfl
  · dsimp only
    split <;> omega

/-- A cursor goes to no earlier line. -/
theorem line_le_steps (n : Nat) (c : Cursor) : c.line ≤ (c.steps n).line := by
  induction n generalizing c with
  | zero => exact le_rfl
  | succ n ih => exact c.line_le_step.trans (ih c.step)

theorem rest_steps_append {c : Cursor} {w r : List Char} (h : c.rest = w ++ r) :
    (c.steps w.length).rest = r := by
  rw [rest_steps, h, List.drop_left]

/-- A run of characters of a class, and the place after it. -/
theorem span_append {c : Cursor} {p : Char → Bool} {w r : List Char} (h : c.rest = w ++ r)
    (hw : ∀ x ∈ w, p x = true) (hr : ∀ x ∈ r.head?, p x = false) :
    c.span p = (w, c.steps w.length) := by
  have htake : c.rest.takeWhile p = w := by
    rw [h, List.takeWhile_append_of_pos hw]
    cases r with
    | nil => rw [List.takeWhile_nil, List.append_nil]
    | cons x r =>
      rw [List.takeWhile_cons, hr x (Option.mem_some_self x), if_neg Bool.false_ne_true,
        List.append_nil]
  rw [span, htake]

theorem skip_append {c : Cursor} {p : Char → Bool} {w r : List Char} (h : c.rest = w ++ r)
    (hw : ∀ x ∈ w, p x = true) (hr : ∀ x ∈ r.head?, p x = false) :
    c.skip p = c.steps w.length := by
  rw [skip, span_append h hw hr]

theorem skip_eq_self {c : Cursor} {p : Char → Bool} (h : ∀ x ∈ c.rest.head?, p x = false) :
    c.skip p = c :=
  skip_append (w := []) rfl (by simp) h

theorem lineBreak?_eq_none {c : Cursor} (h : ∀ x ∈ c.rest.head?, isBreak x = false) :
    c.lineBreak? = none := by
  unfold lineBreak?
  split
  · next heq => exact absurd (h '\r' (by rw [heq]; rfl)) (by decide)
  · next heq => exact absurd (h '\u2028' (by rw [heq]; rfl)) (by decide)
  · next heq => exact absurd (h '\u2029' (by rw [heq]; rfl)) (by decide)
  · next ch _ _ _ _ heq =>
    rw [h ch (by rw [heq]; rfl)]
    rfl
  · rfl

theorem lineBreak?_lineFeed {c : Cursor} {r : List Char} (h : c.rest = '\n' :: r) :
    c.lineBreak? = some ('\n', c.step) := by
  unfold lineBreak?
  rw [h]
  rfl

/-- The place after a line feed and the spaces of an indentation. -/
theorem steps_newLine {c : Cursor} {n : Nat} {r : List Char}
    (h : c.rest = '\n' :: (List.replicate n ' ' ++ r)) :
    c.step.steps n = { rest := r, index := c.index + 1 + n, line := c.line + 1, column := n } := by
  have hstep : c.step = { rest := List.replicate n ' ' ++ r, index := c.index + 1,
                          line := c.line + 1, column := 0 } := by
    unfold step
    rw [h]
    rfl
  have halong := steps_along (c := c.step) (w := List.replicate n ' ') (r := r) (by rw [hstep])
    fun x hx => by rw [List.eq_of_mem_replicate hx]; rfl
  rw [List.length_replicate] at halong
  rw [halong, hstep, along]
  dsimp only
  rw [Nat.zero_add]

end Cursor

end Storyline.Yaml
