import Storyline.Text.Digit
import Storyline.Text.Blank
import Storyline.Number.Binary

/-!
# Number literals

Numbers as they are written in conditions, assignments and text values: integers in decimal of any
script or with a base, decimals with an optional exponent, and the infinities.

## Main definitions

* `Number`: an unbounded integer or a double
* `NumberFault`: why a number cannot be read, written or made a double
* `readLiteral`: the number that a text spells
* `writeInt`: the decimal digits of an integer
-/

namespace Storyline

/-- Why a number cannot be read, written or made a double. -/
inductive NumberFault where
  /-- An integer is spelled with more decimal digits than are read. -/
  | tooManyDigits (count : Nat)
  /-- An integer has more decimal digits than are written. -/
  | tooLongToWrite
  /-- An integer is beyond the largest double. -/
  | tooLargeForFloat
  deriving Repr, DecidableEq

/-- The most decimal digits that an integer is read from or written with. -/
def digitLimit : Nat :=
  4300

/-- The words for an integer with too many digits. -/
def digitLimitMessage : String :=
  s!"Exceeds the limit ({digitLimit} digits) for integer string conversion"

/-- The words for what could be done about it. -/
def digitLimitAdvice : String :=
  "use sys.set_int_max_str_digits() to increase the limit"

/-- The message of a number fault. -/
def NumberFault.message : NumberFault → String
  | .tooManyDigits count =>
    digitLimitMessage ++ s!": value has {count} digits; " ++ digitLimitAdvice
  | .tooLongToWrite => digitLimitMessage ++ "; " ++ digitLimitAdvice
  | .tooLargeForFloat => "int too large to convert to float"

/-- A number: an unbounded integer or a double. -/
inductive Number where
  | int (n : Int)
  | float (x : Float)

namespace Number

/-- An integer as the nearest double. -/
def floatOfInt (n : Int) : Except NumberFault Float :=
  match ofInt? n with
  | some x => .ok x
  | none => .error .tooLargeForFloat

/-- A number as a double. -/
def toFloat : Number → Except NumberFault Float
  | .int n => floatOfInt n
  | .float x => .ok x

/-- A text without one sign in front, and whether that sign was a minus. -/
def splitSign : List Char → Bool × List Char
  | '-' :: r => (true, r)
  | '+' :: r => (false, r)
  | r => (false, r)

/-- The values of the decimal digits that a text begins with, and the rest of it. -/
def splitDigits : List Char → List Nat × List Char
  | [] => ([], [])
  | c :: r =>
    match Text.digitValue? c with
    | some d => let p := splitDigits r; (d :: p.1, p.2)
    | none => ([], c :: r)

/-- A signed integer from its decimal digits, unless there are too many of them. -/
def ofSignedDigits (negative : Bool) (ds : List Nat) : Except NumberFault Int :=
  if digitLimit < ds.length then .error (.tooManyDigits ds.length)
  else
    let n := Text.ofDigits 10 ds
    .ok (if negative then -n else n)

/-- The sign and the digits of an optional sign followed by decimal digits alone. -/
def integerDigits? (s : List Char) : Option (Bool × List Nat) :=
  let (negative, r) := splitSign s
  match splitDigits r with
  | ([], _) => none
  | (ds, []) => some (negative, ds)
  | _ => none

/-- The exponent that a text spells after a decimal; no exponent counts as zero. -/
def exponent? : List Char → Option Int
  | [] => some 0
  | c :: r =>
    if c = 'e' || c = 'E' then
      (integerDigits? r).map fun p =>
        let n : Int := Text.ofDigits 10 p.2
        if p.1 then -n else n
    else none

/-- The double nearest to a decimal with an optional sign, point and exponent. -/
def decimal? (s : List Char) : Option Float :=
  let (negative, r) := splitSign s
  let (whole, r) := splitDigits r
  let (fraction, r) := match r with
    | '.' :: t => splitDigits t
    | _ => ([], r)
  if whole.isEmpty && fraction.isEmpty then none
  else (exponent? r).map fun e =>
    ofDecimal negative (Text.ofDigits 10 (whole ++ fraction)) (e - fraction.length)

/-- The value of digits in a base, if there are digits and nothing else. -/
def based? (base : Nat) (s : List Char) : Option Int :=
  if s.isEmpty then none
  else
    (s.mapM fun c => (Text.hexValue? c).filter (· < base)).map fun ds =>
      (Text.ofDigits base ds : Nat)

/-- The value of a literal with a base: `0x`, `0b` or `0o` and digits of that base. -/
def prefixed? : List Char → Option Int
  | '0' :: c :: r =>
    if c = 'x' || c = 'X' then based? 16 r
    else if c = 'b' || c = 'B' then based? 2 r
    else if c = 'o' || c = 'O' then based? 8 r
    else none
  | _ => none

/-- The infinity that a text names. -/
def infinity? (s : List Char) : Option Float :=
  if s = "Infinity".toList || s = "+Infinity".toList then some infinity
  else if s = "-Infinity".toList then some negativeInfinity
  else none

/-- The number that a text spells, blanks around it aside; none if it spells no number. -/
def readLiteral (s : List Char) : Except NumberFault (Option Number) :=
  let t := Text.trim s
  match integerDigits? t with
  | some (negative, ds) => (ofSignedDigits negative ds).map fun n => some (.int n)
  | none =>
    match decimal? t with
    | some x => .ok (some (.float x))
    | none =>
      match prefixed? t with
      | some n => .ok (some (.int n))
      | none => .ok ((infinity? t).map .float)

/-- The decimal digits of an integer, with a minus sign if it is negative. -/
def intDigits (n : Int) : List Char :=
  if n < 0 then '-' :: Nat.toDigits 10 n.natAbs else Nat.toDigits 10 n.natAbs

/-- The decimal text of an integer, unless it is too long. -/
def writeInt (n : Int) : Except NumberFault String :=
  let ds := intDigits n
  if digitLimit < (Nat.toDigits 10 n.natAbs).length then .error .tooLongToWrite
  else .ok (String.ofList ds)

end Number

end Storyline
