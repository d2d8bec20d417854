import Storyline.Yaml.Cursor
import Storyline.Yaml.Tag

/-!
# Writing YAML

The text of data as YAML: blocks with two spaces of indentation, strings plain where they read back
as themselves, else between quotes.  A string with a line feed or a carriage return is always
written on one line between double quotes, so no line of a text is part of a string.

## Main definitions

* `Style`, `Traits`, `styleOf`: how a string is written
* `scalarForm`: a scalar as it is written
* `render`: a mapping as it is written
-/

namespace Storyline.Yaml

open Text

/-- How a scalar is written. -/
inductive Style where
  | plain
  | single
  | double
  deriving Repr, DecidableEq

/-- Where a scalar is written: as a key, between brackets, or as another value. -/
inductive Place where
  | key
  | bracket
  | value
  deriving Repr, DecidableEq

/-! ## What a string holds -/

/-- The line breaks that a scalar on one line cannot hold; a carriage return is not among them. -/
def isWrittenBreak (c : Char) : Bool :=
  c == '\n' || c == '\u0085' || c == '\u2028' || c == '\u2029'

/-- Characters that are written as they are. -/
def isShown (c : Char) : Bool :=
  let n := c.toNat
  c == '\n' || (0x20 ≤ n && n ≤ 0x7E) || n == 0x85 ||
    (((0xA0 ≤ n && n ≤ 0xD7FF) || (0xE000 ≤ n && n ≤ 0xFFFD) || (0x10000 ≤ n && n < 0x10FFFF)) &&
      n != 0xFEFF)

/-- Whether a text is at its end or goes on with a separator. -/
def atSeparator (s : List Char) : Bool :=
  s.head?.all fun c => c == '\x00' || isSeparator c

/-- Whether a string begins with a mark of YAML; between brackets a question mark or a colon is one
whatever follows it. -/
def startsWithMark (bracket : Bool) : List Char → Bool
  | [] => false
  | c :: r =>
    "#,[]\x7b\x7d&*!|>'\"%@`".toList.contains c ||
      ((c == '?' || c == ':') && (bracket || atSeparator r)) || (c == '-' && atSeparator r)

/-- Whether there is a mark of YAML after the first character, given the one before it. -/
def holdsMark (bracket : Bool) : Char → List Char → Bool
  | _, [] => false
  | before, c :: r =>
    (bracket && ",?[]\x7b\x7d".toList.contains c) || (c == ':' && (bracket || atSeparator r)) ||
      (c == '#' && (before == '\x00' || isSeparator before)) || holdsMark bracket c r

/-- Whether a character of the first class stands right before one of the second. -/
def hasPair (p q : Char → Bool) : List Char → Bool
  | a :: b :: r => (p a && q b) || hasPair p q (b :: r)
  | _ => false

/-- Whether a string begins or ends with a space or a line break. -/
def hasBlankEnd (s : List Char) : Bool :=
  let blank (c : Char) := c == ' ' || isWrittenBreak c
  s.head?.any blank || s.getLast?.any blank

/-- Whether a string has more than one line. -/
def isMultiline (s : List Char) : Bool :=
  s.any isWrittenBreak

/-- Whether a string can be written plain. -/
def allowsPlain (bracket : Bool) (s : List Char) : Bool :=
  match s with
  | [] => !bracket
  | c :: r =>
    !(hasBlankEnd s || isMultiline s || s.any (fun c => !isShown c) || startsWithMark bracket s ||
      holdsMark bracket c r || ['-', '-', '-'].isPrefixOf s || ['.', '.', '.'].isPrefixOf s)

/-- Whether a string can be written between single quotes. -/
def allowsSingle (s : List Char) : Bool :=
  !(hasPair isWrittenBreak (· == ' ') s || hasPair (· == ' ') isWrittenBreak s ||
    s.any (fun c => !isShown c))

/-- How a string is written. -/
def styleOf (place : Place) (s : List Char) : Style :=
  -- A string with line breaks stays on one line, with the breaks as escapes.
  if s.contains '\n' || s.contains '\r' then .double
  else if Tag.ofPlain s == .str && allowsPlain (place == .bracket) s then .plain
  else if allowsSingle s then .single
  else .double

/-! ## Scalars -/

/-- The letters that stand for characters after a backslash. -/
def escapeLetters : List (Char × Char) :=
  [('\x00', '0'), ('\x07', 'a'), ('\x08', 'b'), ('\t', 't'), ('\n', 'n'), ('\x0b', 'v'),
    ('\x0c', 'f'), ('\r', 'r'), ('\x1b', 'e'), ('"', '"'), ('\\', '\\'), ('\u0085', 'N'),
    ('\u00a0', '_'), ('\u2028', 'L'), ('\u2029', 'P')]

/-- Whether a character is written as it is between double quotes. -/
def isShownInDouble (c : Char) : Bool :=
  let n := c.toNat
  !("\"\\\u0085\u2028\u2029\uFEFF".toList.contains c) &&
    ((0x20 ≤ n && n ≤ 0x7E) || (0xA0 ≤ n && n ≤ 0xD7FF) || (0xE000 ≤ n && n ≤ 0xFFFD))

/-- A code point as capital hexadecimal digits. -/
def capitalHex (width n : Nat) : List Char :=
  (hexDigits width n).map Char.toUpper

/-- A character between double quotes. -/
def doubleChar (c : Char) : List Char :=
  if isShownInDouble c then [c]
  else match List.lookup c escapeLetters with
    | some l => ['\\', l]
    | none =>
      let n := c.toNat
      if n ≤ 0xFF then '\\' :: 'x' :: capitalHex 2 n
      else if n ≤ 0xFFFF then '\\' :: 'u' :: capitalHex 4 n
      else '\\' :: 'U' :: capitalHex 8 n

/-- A string between single quotes from here on: a quote is written twice, and the text after line
breaks is indented. -/
def singleChars (indent : Nat) : List Char → List Char
  | [] => []
  | c :: r =>
    if c = '\'' then '\'' :: '\'' :: singleChars indent r
    else if isWrittenBreak c && !(r.head?.any isWrittenBreak) then
      c :: List.replicate indent ' ' ++ singleChars indent r
    else c :: singleChars indent r

/-- A string as it is written; further lines are indented. -/
def stringText (place : Place) (indent : Nat) (s : List Char) : List Char :=
  match styleOf place s with
  | .plain => s
  | .single => '\'' :: singleChars indent s ++ ['\'']
  | .double => '"' :: s.flatMap doubleChar ++ ['"']

/-- Doubles in YAML: the mantissa has a point also before an exponent, and what is no number is
spelled with a point in front. -/
def floatLayout : Number.Layout :=
  { pointBeforeExponent := true, infinite := ".inf", negativeInfinite := "-.inf", nan := ".nan" }

/-- A scalar as it is written; what is not a scalar is written as nothing. -/
def scalarForm (place : Place) (indent : Nat) : Value → Except NumberFault (List Char)
  | .bool b => .ok (if b then "true" else "false").toList
  | .int n => (Number.writeInt n).map String.toList
  | .float x => .ok (Number.render floatLayout x).toList
  | .str s => .ok (stringText place indent s.toList)
  | _ => .ok "null".toList

/-! ## Collections -/

/-- The length of the name of a scalar's tag, which counts with the length of a key. -/
def tagLength : Value → Nat
  | .bool _ => 6
  | .int _ => 5
  | .float _ => 7
  | .str _ => 5
  | _ => 6

/-- The least length that is too long for a key on the line of its value. -/
def simpleKeyLimit : Nat :=
  128

/-- Whether a key stands on the line of its value: it has one line and is not empty or long. -/
def isSimpleKey (k : Value) : Except NumberFault Bool := do
  match k with
  | .str s =>
    let cs := s.toList
    return !cs.isEmpty && !isMultiline cs && cs.length + tagLength k < simpleKeyLimit
  | k => return (← scalarForm .key 0 k).length + tagLength k < simpleKeyLimit

/-- A line break and the spaces of an indentation. -/
def newLine (indent : Nat) : List Char :=
  '\n' :: List.replicate indent ' '

/-- Items between square brackets. -/
def bracketed (indent : Nat) (items : List Value) : Except NumberFault (List Char) := do
  let texts ← items.mapM (scalarForm .bracket (indent + 4))
  return '[' :: (List.intercalate [',', ' '] texts) ++ [']']

/-- Lines of a collection as one text; each stands at the indentation. -/
def joinLines (indent : Nat) (ls : List (List Char)) : List Char :=
  List.intercalate (newLine indent) ls

/-- What stands between the mark of a value and the first line of a collection: after the colon of a
key on one line a new line, after other marks a space. -/
def gap (indent : Nat) (fresh : Bool) : List Char :=
  if fresh then newLine indent else [' ']

mutual

/-- What stands after the mark of a value in a collection indented by `indent`; `fresh` says that
the mark is the colon of a key on one line. -/
def valueText (indent : Nat) (fresh : Bool) : Value → Except NumberFault (List Char)
  | .list items => do
    if items.isEmpty then return " []".toList
    return gap (indent + 2) fresh ++ joinLines (indent + 2) (← itemTexts (indent + 2) items)
  | .map entries => do
    if entries.isEmpty then return " \x7b\x7d".toList
    return gap (indent + 2) fresh ++ joinLines (indent + 2) (← entryTexts (indent + 2) entries)
  | v => do return ' ' :: (← scalarForm .value (indent + 2) v)

/-- The items of a sequence. -/
def itemTexts (indent : Nat) : List Value → Except NumberFault (List (List Char))
  | [] => .ok []
  | v :: vs => do
    let head ← valueText indent false v
    return ('-' :: head) :: (← itemTexts indent vs)

/-- The entries of a mapping. -/
def entryTexts (indent : Nat) : List (Value × Value) → Except NumberFault (List (List Char))
  | [] => .ok []
  | (k, v) :: es => do
    let simple ← isSimpleKey k
    let key ← scalarForm (if simple then .key else .value) (indent + 2) k
    let value ← valueText indent simple v
    let head :=
      if simple then key ++ ':' :: value
      -- Any other key has a mark in front, and its value begins a line.
      else '?' :: ' ' :: key ++ newLine indent ++ ':' :: value
    return head :: (← entryTexts indent es)

end

/-- A line of the outermost mapping whose value is a list between brackets. -/
def inlineEntry (k : Value) (items : List Value) : Except NumberFault (List Char) := do
  return (← scalarForm .key 2 k) ++ [':', ' '] ++ (← bracketed 0 items)

/-- An entry of the outermost mapping; the lists under some names stand between brackets. -/
def topEntry (inline : List String) (e : Value × Value) : Except NumberFault (List (List Char)) :=
  match e with
  | (.str k, .list (v :: vs)) =>
    if inline.contains k then do return [← inlineEntry (.str k) (v :: vs)] else entryTexts 0 [e]
  | e => entryTexts 0 [e]

/-- A mapping as it is written, without the line break at its end.  The lists under the names of
`inline` stand between brackets. -/
def renderBody (inline : List String) (entries : List (Value × Value)) :
    Except NumberFault (List Char) := do
  if entries.isEmpty then return "\x7b\x7d".toList
  return joinLines 0 (← entries.mapM (topEntry inline)).flatten

/-- A mapping as it is written. -/
def render (inline : List String) (entries : List (Value × Value)) :
    Except NumberFault (List Char) := do
  return (← renderBody inline entries) ++ ['\n']

end Storyline.Yaml
