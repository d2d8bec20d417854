import Storyline.Yaml.Fault
import Storyline.Number.Spelled
import Storyline.Text.Lines

/-!
# Numbers in a YAML text

The numbers that scalars tagged as such stand for.  Integers may be written in binary, octal,
hexadecimal or in base sixty with colons, doubles in base sixty too.

## Main definitions

* `intValue`, `floatValue`: the number of a scalar
-/

namespace Storyline.Yaml

open Text

/-- The integer that a text spells in a base; a text that spells none is a defect. -/
def intIn (base : Nat) (s : List Char) : Except Defect Int :=
  match Number.spelledInt base s with
  | .ok (some n) => .ok n
  | .ok none => .error (.notInt base (String.ofList s))
  | .error f => .error (.number f)

/-- The sign of a number that may be signed, and its text without the sign. -/
def signOf (s : List Char) : Int × List Char :=
  match s with
  | '-' :: r => (-1, r)
  | '+' :: r => (1, r)
  | r => (1, r)

/-- The number whose places in base sixty are given, the highest first. -/
def fromSixties (places : List Int) : Int :=
  places.foldl (fun n d => n * 60 + d) 0

/-- The integer of a scalar. -/
def intValue (text : List Char) : Except Defect Int := do
  let s := text.filter (· ≠ '_')
  if s.isEmpty then throw .emptyNumber
  let (sign, r) := signOf s
  match r with
  | [] => throw .emptyNumber
  | ['0'] => return 0
  | '0' :: 'b' :: ds => return sign * (← intIn 2 ds)
  | '0' :: 'x' :: ds => return sign * (← intIn 16 ds)
  | '0' :: _ => return sign * (← intIn 8 r)
  | _ =>
    if r.contains ':' then return sign * fromSixties (← (splitAt ':' r).mapM (intIn 10))
    else return sign * (← intIn 10 r)

/-- The double that a text spells; a text that spells none is a defect. -/
def floatOf (s : List Char) : Except Defect Float :=
  match Number.spelledFloat? s with
  | some x => .ok x
  | none => .error (.notFloat (String.ofList s))

/-- The number whose places in base sixty are given, the lowest first, added up from there. -/
def floatFromSixties : Float → Int → List Float → Except Defect Float
  | sum, _, [] => .ok sum
  | sum, unit, d :: ds =>
    match Number.floatOfInt unit with
    | .ok u => floatFromSixties (sum + d * u) (unit * 60) ds
    | .error f => .error (.number f)

/-- The double of a scalar. -/
def floatValue (text : List Char) : Except Defect Float := do
  let s := (text.filter (· ≠ '_')).map Char.toLower
  if s.isEmpty then throw .emptyNumber
  let (sign, r) := signOf s
  let x ←
    if r = ".inf".toList then pure Number.infinity
    else if r = ".nan".toList then pure Number.notANumber
    else if r.contains ':' then do
      let places ← (splitAt ':' r).mapM floatOf
      floatFromSixties 0 1 places.reverse
    else floatOf r
  return if sign < 0 then -x else x

end Storyline.Yaml
