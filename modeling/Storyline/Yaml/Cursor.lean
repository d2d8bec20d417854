import Storyline.Yaml.Fault

/-!
# Places in a text

A place in a text with what is still to be read.  A line ends at a line feed, a carriage return, the
two together, a next line or a line or paragraph separator.

## Main definitions

* `Cursor`: the rest of a text, and its place as index, line and column
* `Cursor.step`, `Cursor.steps`, `Cursor.skip`, `Cursor.span`: going on
* `Cursor.lineBreak?`: reading the end of a line

## Main results

* `rest_steps`: going on by `n` drops `n` characters
-/

namespace Storyline.Yaml

/-- Whether a character ends a line. -/
def isBreak (c : Char) : Bool :=
  c == '\n' || c == '\r' || c == '\u0085' || c == '\u2028' || c == '\u2029'

/-- Whether a character separates words: a space, a tab or the end of a line. -/
def isSeparator (c : Char) : Bool :=
  c == ' ' || c == '\t' || isBreak c

/-- A place in a text: what is still to be read, and index, line and column, all from zero. -/
structure Cursor where
  rest : List Char
  index : Nat := 0
  line : Nat := 0
  column : Nat := 0
  deriving Repr

namespace Cursor

/-- The next character. -/
def peek (c : Cursor) : Option Char :=
  c.rest.head?

/-- The character after `n` others. -/
def peekAt (c : Cursor) (n : Nat) : Option Char :=
  c.rest[n]?

/-- The place after one character.  A byte order mark takes no column. -/
def step (c : Cursor) : Cursor :=
  match c.rest with
  | [] => c
  | ch :: r =>
    let ends := isBreak ch && !(ch == '\r' && r.head? == some '\n')
    { rest := r
      index := c.index + 1
      line := if ends then c.line + 1 else c.line
      column := if ends then 0 else if ch == '\uFEFF' then c.column else c.column + 1 }

/-- The place after `n` characters. -/
def steps : Nat → Cursor → Cursor
  | 0, c => c
  | n + 1, c => steps n c.step

/-- The characters of a class that come next, and the place after them. -/
def span (p : Char → Bool) (c : Cursor) : List Char × Cursor :=
  let run := c.rest.takeWhile p
  (run, c.steps run.length)

/-- The place after the characters of a class that come next. -/
def skip (p : Char → Bool) (c : Cursor) : Cursor :=
  (c.span p).2

/-- Whether the text is at its end or the next character is in a class. -/
def atEndOr (p : Char → Bool) (c : Cursor) : Bool :=
  c.peek.all p

/-- Whether the text ends after `n` characters or goes on with one of a class. -/
def endsAtOr (p : Char → Bool) (n : Nat) (c : Cursor) : Bool :=
  (c.peekAt n).all p

/-- The end of a line that comes next, as one character, and the place after it.  Only the line and
the paragraph separator stay what they are; every other end is a line feed. -/
def lineBreak? (c : Cursor) : Option (Char × Cursor) :=
  match c.rest with
  | '\r' :: '\n' :: _ => some ('\n', c.steps 2)
  | '\u2028' :: _ => some ('\u2028', c.step)
  | '\u2029' :: _ => some ('\u2029', c.step)
  | ch :: _ => if isBreak ch then some ('\n', c.step) else none
  | [] => none

/-- A problem at this place. -/
def fail {α : Type} (c : Cursor) (p : Problem) : Except Fault α :=
  .error (.problem p c.line)

@[simp] theorem rest_step (c : Cursor) : c.step.rest = c.rest.drop 1 := by
  unfold step
  split <;> simp_all

@[simp] theorem rest_steps (n : Nat) (c : Cursor) : (c.steps n).rest = c.rest.drop n := by
  induction n generalizing c with
  | zero => rfl
  | succ n ih => simp [steps, ih]

end Cursor

/-- The cursor at the start of a text. -/
def Cursor.ofText (s : List Char) : Cursor :=
  { rest := s }

/-- Whether a document separator comes next: three hyphens or points and then a separator. -/
def atDocumentMark (c : Cursor) : Bool :=
  (['-', '-', '-'].isPrefixOf c.rest || ['.', '.', '.'].isPrefixOf c.rest) &&
    c.endsAtOr isSeparator 3

end Storyline.Yaml
