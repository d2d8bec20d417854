import Storyline.Text.Blank

/-!
# Lines of a text

A text as its list of lines, and the common left margin of lines.

## Main definitions

* `lines`, `unlines`: a text cut at its line feeds, and put together again
* `normalizeBreaks`: every line ends in a single line feed
* `dedent`: a text without the margin that its lines share

## Main results

* `unlines_lines`: cutting a text and joining its lines gives the text
* `lines_unlines`: joining lines and cutting gives the lines
-/

namespace Storyline.Text

/-- The pieces of a text between occurrences of a character; there is always at least one. -/
def splitAt (sep : Char) : List Char → List (List Char)
  | [] => [[]]
  | c :: r =>
    if c = sep then [] :: splitAt sep r
    else match splitAt sep r with
      | [] => [[c]]
      | l :: ls => (c :: l) :: ls

/-- The lines of a text, which a line feed separates; there is always at least one. -/
def lines (s : List Char) : List (List Char) :=
  splitAt '\n' s

/-- Lines as one text, with a line feed between neighbours. -/
def unlines : List (List Char) → List Char
  | [] => []
  | [l] => l
  | l :: m :: ls => l ++ '\n' :: unlines (m :: ls)

theorem splitAt_ne_nil (sep : Char) (s : List Char) : splitAt sep s ≠ [] := by
  cases s with
  | nil => simp [splitAt]
  | cons c r =>
    simp only [splitAt]
    split
    · simp
    · split <;> simp

theorem lines_ne_nil (s : List Char) : lines s ≠ [] :=
  splitAt_ne_nil '\n' s

@[simp] theorem lines_nil : lines [] = [[]] := rfl

@[simp] theorem lines_break (r : List Char) : lines ('\n' :: r) = [] :: lines r := rfl

theorem unlines_nil_cons (l : List Char) {ls : List (List Char)} (h : ls ≠ []) :
    unlines (l :: ls) = l ++ '\n' :: unlines ls := by
  cases ls with
  | nil => exact absurd rfl h
  | cons m ms => rfl

/-- Cutting a text into lines and joining them gives the text. -/
@[simp] theorem unlines_lines (s : List Char) : unlines (lines s) = s := by
  induction s with
  | nil => rfl
  | cons c r ih =>
    by_cases hc : c = '\n'
    · subst hc
      rw [lines_break, unlines_nil_cons _ (lines_ne_nil r), ih]
      rfl
    · unfold lines at ih ⊢
      simp only [splitAt, hc, if_false]
      split
      · next h => exact absurd h (splitAt_ne_nil _ _)
      · next l ls h =>
        rw [h] at ih
        cases ls with
        | nil => simpa [unlines] using ih
        | cons m ms => simpa [unlines] using ih

/-- A text without line feeds lengthens the first line of what follows it. -/
theorem lines_append {l t m : List Char} {ms : List (List Char)} (hl : '\n' ∉ l)
    (ht : lines t = m :: ms) : lines (l ++ t) = (l ++ m) :: ms := by
  induction l with
  | nil => simpa using ht
  | cons c l ih =>
    have hc : c ≠ '\n' := fun e => hl (e ▸ List.mem_cons_self)
    have hrec := ih fun e => hl (List.mem_cons_of_mem _ e)
    unfold lines at hrec ⊢
    simp [splitAt, hc, hrec]

/-- Joining lines that hold no line feed and cutting the text gives the lines. -/
theorem lines_unlines {ls : List (List Char)} (hne : ls ≠ []) (h : ∀ l ∈ ls, '\n' ∉ l) :
    lines (unlines ls) = ls := by
  induction ls with
  | nil => exact absurd rfl hne
  | cons l ls ih =>
    have hl : '\n' ∉ l := h l List.mem_cons_self
    cases ls with
    | nil => simpa [unlines] using lines_append hl lines_nil
    | cons m ms =>
      have := ih (by simp) fun x hx => h x (List.mem_cons_of_mem _ hx)
      simp only [unlines]
      simpa using @lines_append l ('\n' :: unlines (m :: ms)) [] (m :: ms) hl
        (by rw [lines_break, this])

/-- A text with `"\r\n"` written as a plain line feed. -/
def normalizeBreaks : List Char → List Char
  | [] => []
  | '\r' :: '\n' :: r => '\n' :: normalizeBreaks r
  | c :: r => c :: normalizeBreaks r

/-- A text in which a carriage return, alone or before a line feed, is a plain line feed. -/
def universalBreaks : List Char → List Char
  | [] => []
  | '\r' :: '\n' :: r => '\n' :: universalBreaks r
  | '\r' :: r => '\n' :: universalBreaks r
  | c :: r => c :: universalBreaks r

/-- The longest text that two texts begin with. -/
def commonStart : List Char → List Char → List Char
  | a :: s, b :: t => if a = b then a :: commonStart s t else []
  | _, _ => []

/-- Spaces and tabs, the characters that indent. -/
def isIndent (c : Char) : Bool :=
  c == ' ' || c == '\t'

/-- The indentation that the lines share, lines of indentation alone left out. -/
def margin (ls : List (List Char)) : List Char :=
  match (ls.filter fun l => !l.all isIndent).map (·.takeWhile isIndent) with
  | [] => []
  | m :: ms => ms.foldl commonStart m

/-- A text without the margin of its lines; lines of indentation alone become empty. -/
def dedent (s : List Char) : List Char :=
  let ls := (lines s).map fun l => if l.all isIndent then [] else l
  let m := margin ls
  unlines (ls.map fun l => if m.isPrefixOf l then l.drop m.length else l)

end Storyline.Text
