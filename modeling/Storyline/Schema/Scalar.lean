import Storyline.Schema.Checked
import Storyline.Value.Basic
import Storyline.Number.Spelled

/-!
# Reading scalars

Scalars of a document.  A variable keeps the exact kind of its value; a switch or a count is read
from whatever spells one.

## Main definitions

* `readString`, `readBool`, `readInt`, `readCount`: parts of one kind
* `readScalar`: a value of one of four kinds
* `optional`, `readList`, `readMapping`: parts that may be missing, lists and mappings
-/

namespace Storyline.Schema

/-- The text of bytes, if they are text. -/
def bytesText? (bs : List UInt8) : Option String :=
  String.fromUTF8? ⟨bs.toArray⟩

/-- A string. -/
def readString : Value → Checked String
  | .str s => .ok s
  | .bytes bs =>
    match bytesText? bs with
    | some s => .ok s
    | none => .problem .notUnicode
  | _ => .problem .notString

/-- The words for true. -/
def trueWords : List String :=
  ["1", "on", "t", "true", "y", "yes"]

/-- The words for false. -/
def falseWords : List String :=
  ["0", "off", "f", "false", "n", "no"]

/-- The truth value that a word spells, in letters of either case. -/
def boolOfWord? (s : String) : Option Bool :=
  let w := s.map Char.toLower
  if trueWords.contains w then some true
  else if falseWords.contains w then some false
  else none

/-- A truth value, or a number or a word for one. -/
def readBool : Value → Checked Bool
  | .bool b => .ok b
  | .int n => if n = 0 then .ok false else if n = 1 then .ok true else .problem .noBoolSpelled
  | .float x => if x == 0 then .ok false else if x == 1 then .ok true else .problem .noBoolSpelled
  | .str s => ofWord (boolOfWord? s)
  | .bytes bs => ofWord ((bytesText? bs).bind boolOfWord?)
  | _ => .problem .notBool
where
  /-- A truth value that a word may spell. -/
  ofWord : Option Bool → Checked Bool
    | some b => .ok b
    | none => .problem .noBoolSpelled

/-- A text without a fraction of zeros alone. -/
def withoutZeroFraction (s : List Char) : List Char :=
  match s.dropWhile (· ≠ '.') with
  | '.' :: r => if r.all (· = '0') then s.takeWhile (· ≠ '.') else s
  | _ => s

/-- The integer that a text spells in ASCII digits. -/
def spelledInt? (s : List Char) : Option Int := do
  let t ← Number.withoutUnderscores? (withoutZeroFraction (Number.trimBlanks s))
  let (negative, r) := Number.splitSign t
  if r.isEmpty || !r.all Char.isDigit then none
  else
    let n : Int := Text.ofDigits 10 (r.map fun c => c.toNat - 0x30)
    some (if negative then -n else n)

/-- The double that a text spells in ASCII, among them infinity and the value that is no number. -/
def spelledFloat? (s : List Char) : Option Float := do
  let t := Number.trimBlanks s
  let t ← if t.contains '_' then Number.withoutUnderscores? t else some t
  if t.all fun c => c.toNat < 0x80 then Number.spelledFloat? t else none

/-- The most characters from which an integer is read. -/
def spelledIntLimit : Nat :=
  4300

/-- An integer, a number equal to one, or a text that spells one. -/
def readInt : Value → Checked Int
  | .bool b => .ok (if b then 1 else 0)
  | .int n => .ok n
  | .float x =>
    match Number.toInt? x with
    | some n => .ok n
    | none => .problem (if x.isFinite then .fractionForInt else .notFinite)
  | .str s => spelled s
  | .bytes bs =>
    match bytesText? bs with
    | some s => spelled s
    | none => .problem .noIntSpelled
  | _ => .problem .notInt
where
  /-- The integer that a text spells. -/
  spelled (s : String) : Checked Int :=
    if spelledIntLimit < s.utf8ByteSize then .problem .intTooLong
    else match spelledInt? s.toList with
      | some n => .ok n
      | none => .problem .noIntSpelled

/-- A double, or a text that spells one. -/
def readFloat : Value → Checked Float
  | .float x => .ok x
  | .str s => spelled s
  | .bytes bs =>
    match bytesText? bs with
    | some s => spelled s
    | none => .problem .noFloatSpelled
  | _ => .problem .notFloat
where
  /-- The double that a text spells. -/
  spelled (s : String) : Checked Float :=
    match spelledFloat? s.toList with
    | some x => .ok x
    | none => .problem .noFloatSpelled

/-- The alternatives of a part, none of which could be read. -/
def noneOf {α : Type} (alternatives : List (String × List Problem)) : Checked α :=
  .bad (alternatives.flatMap fun a => a.2.map fun p => { p with path := a.1 :: p.path })

/-- An integer or a double, of its own kind; a text that spells both is an integer. -/
def readNumber (v : Value) : Checked Number :=
  match v with
  | .int n => .ok (.int n)
  | .float x => .ok (.float x)
  | _ =>
    match readInt v, readFloat v with
    | .ok n, _ => .ok (.int n)
    | _, .ok x => .ok (.float x)
    | .bad ps, .bad qs => noneOf [("int", ps), ("float", qs)]

/-- The problems of a value that is none of the kinds of a scalar. -/
def scalarProblems (v : Value) : List (String × List Problem) :=
  [("bool", (readBool v).problems), ("int", (readInt v).problems),
    ("float", (readFloat v).problems), ("str", (readString v).problems)]

/-- A scalar of exactly its kind; bytes are the first kind that their text spells. -/
def readScalar? (v : Value) : Option Scalar :=
  match v with
  | .bytes _ =>
    match readBool v, readInt v, readFloat v, readString v with
    | .ok b, _, _, _ => some (.bool b)
    | _, .ok n, _, _ => some (.int n)
    | _, _, .ok x, _ => some (.float x)
    | _, _, _, .ok s => some (.str s)
    | _, _, _, _ => none
  | v => v.scalar?

/-- A scalar of exactly its kind. -/
def readScalar (v : Value) : Checked Scalar :=
  match readScalar? v with
  | some s => .ok s
  | none => noneOf (scalarProblems v)

/-- A part that may be nothing. -/
def optional {α : Type} (read : Value → Checked α) : Value → Checked (Option α)
  | .null => .ok none
  | v => some <$> read v

/-- The parts of a list, each under its place. -/
def readItems {α : Type} (read : Value → Checked α) (place : Nat) : List Value → Checked (List α)
  | [] => .ok []
  | v :: vs => List.cons <$> (read v).under (toString place) <*> readItems read (place + 1) vs

/-- A list. -/
def readList {α : Type} (read : Value → Checked α) : Value → Checked (List α)
  | .list items => readItems read 0 items
  | _ => .problem .notList

/-- The entries of a mapping, each under its name. -/
def readEntries {α : Type} (read : Value → Checked α) :
    List (Value × Value) → Checked (List (String × α))
  | [] => .ok []
  | (k, v) :: es =>
    let entry : Checked (String × α) :=
      match readString k with
      | .ok name => (fun a => (name, a)) <$> (read v).under name
      | .bad ps => (Checked.bad ps).under "[key]"
    List.cons <$> entry <*> readEntries read es

/-- A mapping from names. -/
def readMapping {α : Type} (read : Value → Checked α) : Value → Checked (Mapping α)
  | .map entries => Mapping.ofList <$> readEntries read entries
  | _ => .problem .notMapping

end Storyline.Schema
