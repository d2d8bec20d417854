import Storyline.Number.Binary

/-!
# Shortest decimal text of a double

The fewest decimal digits that read back as the same double, and how they are laid out.

The reals that round to a double `m · 2 ^ e` form an interval, closed exactly when `m` is even.
For one digit, two digits and so on the neighbours of the value on that decimal grid are tried; the
first grid with a neighbour inside the interval gives the digits, and of two neighbours inside the
nearer one, a tie going to the even last digit.

## Main definitions

* `Interval`: the quotients that round to one double
* `shortest`: the fewest digits that read back
* `Layout`: where the point stands and when an exponent is written
* `render`: the text of a double in a layout
-/

namespace Storyline.Number

/-- The reals around `value / den` that round to one double, by their ends over one denominator. -/
structure Interval where
  low : Nat
  value : Nat
  high : Nat
  den : Nat
  closed : Bool
  deriving Repr

/-- The reals that round to `m · 2 ^ e`.  Below a power of two the next double is half as far. -/
def Interval.around (m : Nat) (e : Int) : Interval :=
  let below := if m = hiddenBit && -1074 < e then 1 else 2
  let p := scaled 1 4 e
  { low := (4 * m - below) * p.1, value := 4 * m * p.1, high := (4 * m + 2) * p.1, den := p.2,
    closed := m % 2 = 0 }

/-- Whether `n / d` lies in the interval. -/
def Interval.holds (i : Interval) (n d : Nat) : Bool :=
  if i.closed then i.low * d ≤ n * i.den && n * i.den ≤ i.high * d
  else i.low * d < n * i.den && n * i.den < i.high * d

/-- The number of decimal digits before the point of `num / den`; zeros behind the point count
negative. -/
def pointPosition (num den : Nat) : Int :=
  if den ≤ num then (Nat.toDigits 10 (num / den)).length
  else
    let rec go : Nat → Nat → Int → Int
      | 0, _, k => k
      | fuel + 1, n, k => if den ≤ n * 10 then k else go fuel (n * 10) (k - 1)
    go 400 num 0

/-- The point of the grid `10 ^ p` in the interval that is nearest to the value, if one is. -/
def Interval.onGrid (i : Interval) (p : Int) : Option Nat :=
  let up : Nat := if 0 ≤ p then Nat.pow 10 p.toNat else 1
  let down : Nat := if 0 ≤ p then 1 else Nat.pow 10 (-p).toNat
  let num := i.value * down
  let den := i.den * up
  let d := num / den
  let r := num % den
  -- `d` and `d + 1` are the points of the grid on both sides of the value.
  match i.holds (d * up) down, i.holds ((d + 1) * up) down with
  | false, false => none
  | true, false => some d
  | false, true => some (d + 1)
  | true, true =>
    if 2 * r < den then some d
    else if den < 2 * r then some (d + 1)
    else if d % 2 = 0 then some d else some (d + 1)

/-- Digits without the zeros at their end, with the power of ten that makes up for them. -/
def stripZeros : Nat → Nat → Int → Nat × Int
  | 0, d, p => (d, p)
  | fuel + 1, d, p => if d ≠ 0 && d % 10 = 0 then stripZeros fuel (d / 10) (p + 1) else (d, p)

/-- The fewest digits `d` and the power `p` such that `d · 10 ^ p` reads back as `m · 2 ^ e`. -/
def shortest (m : Nat) (e : Int) : Nat × Int :=
  let i := Interval.around m e
  let k := pointPosition i.value i.den
  let rec go : Nat → Int → Nat × Int
    | 0, p => (i.value / i.den, p)
    | fuel + 1, p =>
      match i.onGrid p with
      | some d => stripZeros 20 d p
      | none => go fuel (p - 1)
  -- Seventeen digits always read back, so the search ends within its eighteen steps.
  if m = 0 then (0, 0) else go 18 (k - 1)

/-- Where the point stands and when an exponent is written. -/
structure Layout where
  /-- The least decimal exponent of the first digit that is written without an exponent. -/
  least : Int := -4
  /-- The decimal exponent of the first digit from which an exponent is written. -/
  limit : Int := 16
  /-- Whether a mantissa of one digit is followed by `.0` before an exponent. -/
  pointBeforeExponent : Bool := false
  infinite : String := "inf"
  negativeInfinite : String := "-inf"
  nan : String := "nan"

/-- Digits `ds`, the first of which has the decimal exponent `k`, with a point. -/
def positional (ds : List Char) (k : Int) : List Char :=
  if k < 0 then '0' :: '.' :: List.replicate (-k - 1).toNat '0' ++ ds
  else
    let n := k.toNat + 1
    if ds.length ≤ n then ds ++ List.replicate (n - ds.length) '0' ++ ['.', '0']
    else ds.take n ++ '.' :: ds.drop n

/-- Digits `ds`, the first of which has the decimal exponent `k`, with an exponent. -/
def scientific (layout : Layout) (ds : List Char) (k : Int) : List Char :=
  let mantissa := match ds with
    | [] => []
    | [d] => if layout.pointBeforeExponent then [d, '.', '0'] else [d]
    | d :: r => d :: '.' :: r
  let width := Nat.toDigits 10 k.natAbs
  mantissa ++ 'e' :: (if k < 0 then '-' else '+') :: List.replicate (2 - width.length) '0' ++ width

/-- The text of a double: its fewest digits, with an exponent when the number is very large or
very small. -/
def render (layout : Layout) (x : Float) : String :=
  match form x with
  | .nan => layout.nan
  | .infinite negative => if negative then layout.negativeInfinite else layout.infinite
  | .finite negative m e =>
    let (d, p) := shortest m e
    let ds := Nat.toDigits 10 d
    let k : Int := p + ds.length - 1
    let body :=
      if layout.least ≤ k && k < layout.limit then positional ds k else scientific layout ds k
    String.ofList (if negative then '-' :: body else body)

/-- The plain text of a double. -/
def floatText (x : Float) : String :=
  render {} x

end Storyline.Number
