import Storyline.Yaml.Token

/-!
# Scalars of a YAML text

The text that a scalar stands for: plain, between quotes, or as a block.  In all of them a line
break between words is a space, and an empty line is a line break.

## Main definitions

* `quotedScalar`: a scalar between quotes
* `plainScalar`: a scalar without quotes
* `blockScalar`: a scalar as a block of lines
-/

namespace Storyline.Yaml

open Text

/-- A line break between words, with the empty lines after it: a lone line feed is a space. -/
def folded (first : Char) (empty : List Char) : List Char :=
  if first ≠ '\n' then first :: empty
  else if empty.isEmpty then [' '] else empty

/-! ## Between quotes -/

/-- The character that a letter stands for after a backslash. -/
def escapes : List (Char × Char) :=
  [('0', '\x00'), ('a', '\x07'), ('b', '\x08'), ('t', '\t'), ('\t', '\t'), ('n', '\n'),
    ('v', '\x0b'), ('f', '\x0c'), ('r', '\r'), ('e', '\x1b'), (' ', ' '), ('"', '"'),
    ('\\', '\\'), ('/', '/'), ('N', '\u0085'), ('_', '\u00a0'), ('L', '\u2028'), ('P', '\u2029')]

/-- The number of hexadecimal digits after a letter that starts a code point. -/
def codeWidths : List (Char × Nat) :=
  [('x', 2), ('u', 4), ('U', 8)]

/-- The character of a code point; what is no character becomes the replacement character. -/
def charOfCode (n : Nat) : Except Fault Char :=
  if 0x7FFFFFFF < n then .error (.defect .wideCodePoint)
  else if 0x10FFFF < n then .error (.defect .codePoint)
  else if n.isValidChar then .ok (Char.ofNat n) else .ok '\uFFFD'

/-- The first of `width` characters that is no hexadecimal digit. -/
def badHex? (width : Nat) (c : Cursor) : Option (Option Char) :=
  ((List.range width).map c.peekAt).find? fun d => !(d.any fun ch => (hexValue? ch).isSome)

/-- The number that the next `width` characters spell in hexadecimal digits. -/
def hexNumber (width : Nat) (c : Cursor) : Nat :=
  ofDigits 16 ((c.rest.take width).map fun ch => (hexValue? ch).getD 0)

/-- The second half of a pair of code units, spelled by an escape of its own, and the place after
it. -/
def lowHalf? (c : Cursor) : Option (Nat × Cursor) :=
  match c.rest with
  | '\\' :: letter :: _ => do
    let width ← List.lookup letter codeWidths
    let d := c.steps 2
    let code := hexNumber width d
    if (badHex? width d).isNone && 0xDC00 ≤ code && code ≤ 0xDFFF then
      some (code, d.steps width)
    else none
  | _ => none

/-- The character of a code point that was just read.  The first half of a pair of code units
stands for one character together with the second half, if that comes next. -/
def escapedChar (code : Nat) (c : Cursor) : Except Fault (Char × Cursor) :=
  match if 0xD800 ≤ code && code ≤ 0xDBFF then lowHalf? c else none with
  | some (low, d) => .ok (Char.ofNat (0x10000 + (code - 0xD800) * 0x400 + (low - 0xDC00)), d)
  | none => (charOfCode code).map fun ch => (ch, c)

/-- The empty lines inside quotes, each as its line break, and the place after the blanks that
follow them. -/
def quotedBreaks : Nat → Cursor → Except Fault (List Char × Cursor)
  | 0, c => .ok ([], c)
  | fuel + 1, c =>
    if atDocumentMark c then c.fail .separatorInQuotes
    else
      let c := c.skip isIndent
      match c.lineBreak? with
      | some (b, c) => do
        let (bs, c) ← quotedBreaks fuel c
        return (b :: bs, c)
      | none => .ok ([], c)
where
  /-- Blanks inside a line. -/
  isIndent (ch : Char) : Bool :=
    ch == ' ' || ch == '\t'

/-- What stands after a backslash between double quotes. -/
def escapeSequence (c : Cursor) : Except Fault (List Char × Cursor) := do
  match c.peek.bind fun ch => List.lookup ch escapes with
  | some ch => return ([ch], c.step)
  | none =>
    match c.peek.bind fun ch => List.lookup ch codeWidths with
    | some width =>
      let c := c.step
      match badHex? width c with
      | some found => c.fail (.hexExpected width found)
      | none =>
        let (ch, c) ← escapedChar (hexNumber width c) (c.steps width)
        return ([ch], c)
    | none =>
      match c.lineBreak? with
      | some (_, c) => quotedBreaks (c.rest.length + 1) c
      | none => c.fail (.unknownEscape c.peek)

/-- The text of a scalar up to the quote that closes it, and the place after that quote. -/
def quotedText (quote : Char) : Nat → Cursor → Except Fault (List Char × Cursor)
  | 0, c => c.fail .endInQuotes
  | fuel + 1, c => do
    let (blanks, d) := c.span quotedBreaks.isIndent
    if blanks.isEmpty then
      match c.rest with
      | [] => c.fail .endInQuotes
      | '\'' :: '\'' :: _ =>
        if quote = '\'' then more ['\''] (c.steps 2) fuel else more ['\''] c.step fuel
      | '\\' :: _ =>
        if quote = '"' then do
          let (s, c) ← escapeSequence c.step
          more s c fuel
        else more ['\\'] c.step fuel
      | ch :: _ =>
        if ch = quote then return ([], c.step)
        else match c.lineBreak? with
          | some (first, c) => do
            let (empty, c) ← quotedBreaks (c.rest.length + 1) c
            more (folded first empty) c fuel
          | none => more [ch] c.step fuel
    else
      match d.lineBreak? with
      -- Blanks at the end of a line do not count.
      | some _ => quotedText quote fuel d
      | none => more blanks d fuel
where
  /-- Text in front of what comes after it. -/
  more (s : List Char) (c : Cursor) (fuel : Nat) : Except Fault (List Char × Cursor) := do
    let (r, c) ← quotedText quote fuel c
    return (s ++ r, c)

/-- The scalar between quotes that starts at the cursor. -/
def quotedScalar (quote : Char) (c : Cursor) : Except Fault (List Char × Cursor) :=
  quotedText quote (c.rest.length + 1) c.step

/-! ## Without quotes -/

/-- Whether a plain scalar ends before the next character: at a separator, at a colon in front of
one, and inside brackets also at the marks of collections. -/
def endsPlain (flow : Bool) : List Char → Bool
  | [] => true
  | ch :: r =>
    isSeparator ch ||
      (ch == ':' && r.head?.all fun d =>
        isSeparator d || (flow && [',', '[', ']', '{', '}'].contains d)) ||
      (flow && [',', '?', '[', ']', '{', '}'].contains ch)

/-- The number of characters up to the end of a word of a plain scalar. -/
def plainLength (flow : Bool) : List Char → Nat
  | [] => 0
  | ch :: r => if endsPlain flow (ch :: r) then 0 else plainLength flow r + 1

/-- The lines that are empty but for spaces, each as its line break; none if a document separator
comes first.  The place is after the spaces that follow. -/
def plainBreaks : Nat → Cursor → Option (List Char) × Cursor
  | 0, c => (some [], c)
  | fuel + 1, c =>
    let c := c.skip (· == ' ')
    match c.lineBreak? with
    | none => (some [], c)
    | some (b, c) =>
      if atDocumentMark c then (none, c)
      else
        let (bs, c) := plainBreaks fuel c
        (bs.map (b :: ·), c)

/-- What stands between two words of a plain scalar, none if no word may follow; the flag says
whether a line has ended. -/
def plainSpaces (c : Cursor) : Option (List Char) × Bool × Cursor :=
  let (spaces, c) := c.span (· == ' ')
  match c.lineBreak? with
  | none => (if spaces.isEmpty then none else some spaces, false, c)
  | some (first, c) =>
    if atDocumentMark c then (none, true, c)
    else
      let (empty, c) := plainBreaks (c.rest.length + 1) c
      (empty.map (folded first), true, c)

/-- A plain scalar: its text, whether a line ended after its last word, and the place after it. -/
structure Plain where
  text : List Char
  lineEnded : Bool
  cursor : Cursor

/-- The words of a plain scalar from the next one on.  On further lines it must be indented by
`indent` unless it stands inside brackets. -/
def plainWords (flow : Bool) (indent : Int) : Nat → List Char → Bool → Cursor → Plain
  | 0, _, ended, c => ⟨[], ended, c⟩
  | fuel + 1, spaces, ended, c =>
    let n := if c.peek == some '#' then 0 else plainLength flow c.rest
    if n = 0 then ⟨[], ended, c⟩
    else
      let word := c.rest.take n
      match plainSpaces (c.steps n) with
      | (none, ended, c) => ⟨spaces ++ word, ended, c⟩
      | (some next, ended, c) =>
        -- A comment, or a line indented too little, ends the scalar, and the blanks with it.
        if c.peek == some '#' || (!flow && c.column < indent) then ⟨spaces ++ word, ended, c⟩
        else
          let p := plainWords flow indent fuel next ended c
          { p with text := spaces ++ word ++ p.text }

/-- The plain scalar that starts at the cursor. -/
def plainScalar (flow : Bool) (indent : Int) (c : Cursor) : Plain :=
  plainWords flow indent (c.rest.length + 1) [] false c

/-! ## As a block -/

/-- What becomes of the line breaks at the end of a block. -/
inductive Chomping where
  | clip
  | strip
  | keep
  deriving Repr, DecidableEq

/-- The chomping that a character stands for. -/
def chomping? : Option Char → Option Chomping
  | some '+' => some .keep
  | some '-' => some .strip
  | _ => none

/-- The indentation that a digit asks for. -/
def increment? (c : Cursor) : Except Fault (Option Nat × Cursor) :=
  match c.peek with
  | some ch =>
    if ch.isDigit then
      if ch = '0' then c.fail .zeroIndentation else .ok (some (ch.toNat - 0x30), c.step)
    else .ok (none, c)
  | none => .ok (none, c)

/-- The indicators of a block: chomping and indentation in either order. -/
def blockIndicators (c : Cursor) : Except Fault (Chomping × Option Nat × Cursor) := do
  let (chomping, increment, c) ← match chomping? c.peek with
    | some ch => do
      let (n, c) ← increment? c.step
      pure (ch, n, c)
    | none => do
      let (n, c) ← increment? c
      match n, chomping? c.peek with
      | some _, some ch => pure (ch, n, c.step)
      | _, _ => pure (.clip, n, c)
  if c.atEndOr (fun ch => ch == ' ' || isBreak ch) then return (chomping, increment, c)
  else c.fail (.indicatorExpected c.peek)

/-- The rest of a line that may hold a comment, and the end of the line. -/
def ignoredLine (c : Cursor) : Except Fault Cursor :=
  let c := c.skip (· == ' ')
  let c := if c.peek == some '#' then c.skip (fun ch => !isBreak ch) else c
  if c.atEndOr isBreak then .ok ((c.lineBreak?.map (·.2)).getD c)
  else c.fail (.breakExpected c.peek)

/-- The empty lines before a block, the greatest column that spaces reach, and the place after. -/
def leadingBreaks : Nat → Nat → Cursor → List Char × Nat × Cursor
  | 0, widest, c => ([], widest, c)
  | fuel + 1, widest, c =>
    if c.peek == some ' ' then
      let c := c.step
      leadingBreaks fuel (max widest c.column) c
    else match c.lineBreak? with
      | some (b, c) =>
        let (bs, widest, c) := leadingBreaks fuel widest c
        (b :: bs, widest, c)
      | none => ([], widest, c)

/-- The place after at most the spaces that indent a line. -/
def skipIndent (indent : Nat) (c : Cursor) : Cursor :=
  c.steps (min ((c.rest.takeWhile (· == ' ')).length) (indent - c.column))

/-- The empty lines inside a block, each as its line break, and the place after the indentation that
follows them. -/
def blockBreaks (indent : Nat) : Nat → Cursor → List Char × Cursor
  | 0, c => ([], c)
  | fuel + 1, c =>
    let c := skipIndent indent c
    match c.lineBreak? with
    | some (b, c) =>
      let (bs, c) := blockBreaks indent fuel c
      (b :: bs, c)
    | none => ([], c)

/-- Whether a line of a block starts with a blank. -/
def startsBlank (c : Cursor) : Bool :=
  c.peek == some ' ' || c.peek == some '\t'

/-- The lines of a block from the next one on: their text, the last line break, none at the end of
the text, the empty lines after it and the place after them. -/
def blockLines (fold : Bool) (indent : Nat) :
    Nat → List Char → Cursor → List Char × Option Char × List Char × Cursor
  | 0, breaks, c => ([], none, breaks, c)
  | fuel + 1, breaks, c =>
    let solid := !startsBlank c
    let (line, c) := c.span (fun ch => !isBreak ch)
    let (last, c) := match c.lineBreak? with
      | some (b, c) => (some b, c)
      | none => (none, c)
    let (empty, c) := blockBreaks indent (c.rest.length + 1) c
    if c.column = indent && c.peek.isSome then
      let between :=
        -- Folding joins two lines only if neither starts with a blank.
        if fold && last == some '\n' && solid && !startsBlank c then
          if empty.isEmpty then [' '] else []
        else last.toList
      let (r, last, empty, c) := blockLines fold indent fuel empty c
      (breaks ++ line ++ between ++ r, last, empty, c)
    else (breaks ++ line, last, empty, c)

/-- The block scalar that starts at the cursor, in a collection indented by `parent`. -/
def blockScalar (fold : Bool) (parent : Int) (c : Cursor) : Except Fault (List Char × Cursor) := do
  let (chomping, increment, c) ← blockIndicators c.step
  let c ← ignoredLine c
  let least := max 1 (parent + 1).toNat
  let (indent, breaks, c) := match increment with
    | some n =>
      -- The digit counts from the indentation of the collection around the block.
      let indent := least + n - 1
      let (breaks, c) := blockBreaks indent (c.rest.length + 1) c
      (indent, breaks, c)
    | none =>
      let (breaks, widest, c) := leadingBreaks (c.rest.length + 1) 0 c
      -- Without a digit the widest of the empty lines in front counts as well.
      (max least widest, breaks, c)
  let (text, last, empty, c) :=
    if c.column = indent && c.peek.isSome then
      blockLines fold indent (c.rest.length + 1) breaks c
    else ([], none, breaks, c)
  let tail := match chomping with
    | .strip => []
    | .clip => last.toList
    | .keep => last.toList ++ empty
  return (text ++ tail, c)

end Storyline.Yaml
