import Storyline.Number.Literal
import Storyline.Text.Quoted

/-!
# Numbers spelled in data

Numbers in the text of settings and documents.  Blanks may stand around them and underscores between
digits.

## Main definitions

* `trimBlanks`, `withoutUnderscores?`: what may stand around and between digits
* `spelledInt`: the integer that a text spells in a base
* `spelledFloat?`: the double that a text spells, among them the infinities
-/

namespace Storyline.Number

/-- The blanks around a spelled number; unlike in stories the four separators are not among them. -/
def isNumberBlank (c : Char) : Bool :=
  Text.isBlank c && !(0x1C ≤ c.toNat && c.toNat ≤ 0x1F)

/-- A text without the blanks around a number. -/
def trimBlanks (s : List Char) : List Char :=
  ((s.dropWhile isNumberBlank).reverse.dropWhile isNumberBlank).reverse

/-- Whether every underscore stands alone and between other characters; the flag says whether an
underscore, or nothing, comes before the text. -/
def loneUnderscores : Bool → List Char → Bool
  | before, [] => !before
  | before, c :: r => if c = '_' then !before && loneUnderscores true r else loneUnderscores false r

/-- A text without its underscores, each of which must stand alone and between others. -/
def withoutUnderscores? (s : List Char) : Option (List Char) :=
  if loneUnderscores true s then some (s.filter (· ≠ '_')) else none

/-- The value of a digit in a base. -/
def digitIn? (base : Nat) (c : Char) : Option Nat :=
  ((Text.digitValue? c).or (Text.hexValue? c)).filter (· < base)

/-- The letter of a base after a zero. -/
def baseLetter? (base : Nat) : Option Char :=
  match base with
  | 16 => some 'x'
  | 8 => some 'o'
  | 2 => some 'b'
  | _ => none

/-- A text without the zero and letter of a base in front of its digits, and without an underscore
after them. -/
def afterBase (base : Nat) : List Char → List Char
  | '0' :: c :: r =>
    if some c.toLower == baseLetter? base then
      match r with
      | '_' :: t => t
      | t => t
    else '0' :: c :: r
  | s => s

/-- The sign and the digits of an integer in a base. -/
def spelledDigits? (base : Nat) (s : List Char) : Option (Bool × List Nat) := do
  let (negative, r) := splitSign (trimBlanks s)
  let r ← withoutUnderscores? (afterBase base r)
  return (negative, ← r.mapM (digitIn? base))

/-- The integer that a text spells in a base, none if it spells none.  Only in base ten the number
of digits is limited. -/
def spelledInt (base : Nat) (s : List Char) : Except NumberFault (Option Int) :=
  match spelledDigits? base s with
  | none => .ok none
  | some (negative, ds) =>
    if base = 10 then (ofSignedDigits negative ds).map some
    else
      let n : Int := Text.ofDigits base ds
      .ok (some (if negative then -n else n))

/-- The words for a text that spells no integer in a base; of a long text the start is shown. -/
def notSpelledMessage (base : Nat) (text : String) : String :=
  let shown := String.ofList ((Text.quoted text.toList).take 200)
  s!"invalid literal for int() with base {base}: {shown}"

/-- The double that a text without underscores spells. -/
def spelledFloat? (s : List Char) : Option Float :=
  let t := trimBlanks s
  let (negative, r) := splitSign t
  let word := String.ofList (r.map Char.toLower)
  if word == "inf" || word == "infinity" then
    some (if negative then negativeInfinity else infinity)
  else if word == "nan" then some notANumber
  else decimal? t

end Storyline.Number
