/-!
# Double-precision numbers, exactly

A finite double is `± m · 2 ^ e` for natural `m`.  This module takes doubles apart into that form
and rounds exact quotients back to the nearest double, so that reading, printing and comparing
numbers is arithmetic on naturals.

## Main definitions

* `Form`, `form`: the exact value of a double
* `nearestBits`, `ofQuotient`: the double nearest to a quotient, ties to the even mantissa
* `ofDecimal`: the double nearest to `m · 10 ^ e`
* `ofInt?`: the double nearest to an integer, if it is finite
* `equalsInt`, `toInt?`: comparison with integers, without rounding
-/

namespace Storyline.Number

/-- The exact value of a double. -/
inductive Form where
  | nan
  | infinite (negative : Bool)
  | finite (negative : Bool) (mantissa : Nat) (exponent : Int)
  deriving Repr, DecidableEq

/-- Two to the fifty-second: the weight of the bit that a double other than the least ones leaves
unwritten, and of the lowest bit of its exponent. -/
def hiddenBit : Nat := 0x10000000000000

/-- Two to the sixty-third: the weight of the bit of the sign. -/
def signBit : Nat := 0x8000000000000000

/-- The exact value of a double: sign, mantissa below `2 ^ 53` and power of two. -/
def form (x : Float) : Form :=
  let bits : Nat := x.toBits.toNat
  let negative : Bool := signBit ≤ bits
  let fraction : Nat := bits % hiddenBit
  let biased : Nat := bits / hiddenBit % 2048
  if biased = 2047 then
    if fraction = 0 then .infinite negative else .nan
  else if biased = 0 then .finite negative fraction (-1074)
  else .finite negative (hiddenBit + fraction) (biased - 1075)

/-- The quotient `num / den` rounded to a natural, a half to the even neighbour. -/
def roundHalfEven (num den : Nat) : Nat :=
  let q := num / den
  let r := num % den
  if 2 * r < den then q
  else if den < 2 * r then q + 1
  else if q % 2 = 0 then q else q + 1

/-- `2 ^ e` times `num / den` as a quotient of naturals. -/
def scaled (num den : Nat) (e : Int) : Nat × Nat :=
  if 0 ≤ e then (num * Nat.pow 2 e.toNat, den) else (num, den * Nat.pow 2 (-e).toNat)

/-- The exponent of the highest power of two that is not above the positive quotient. -/
def floorLog2 (num den : Nat) : Int :=
  let k : Int := (num.log2 : Int) - den.log2
  let p := scaled 1 1 k
  -- The lengths of the two numbers give the exponent up to one.
  if num * p.2 < den * p.1 then k - 1 else k

/-- The bits of the double nearest to a positive quotient; those of infinity when it is beyond the
largest double. -/
def nearestBits (num den : Nat) : Nat :=
  let k := floorLog2 num den
  if 1024 ≤ k then 2047 * hiddenBit
  else
    -- The weight of the last bit of the mantissa; the least doubles have shorter mantissas.
    let e := max (k - 52) (-1074)
    let p := scaled num den (-e)
    let m := roundHalfEven p.1 p.2
    -- A mantissa that rounds up to the next power of two carries into the exponent.
    min ((e + 1074).toNat * hiddenBit + m) (2047 * hiddenBit)

/-- The double with the given sign nearest to `num / den`. -/
def ofQuotient (negative : Bool) (num den : Nat) : Float :=
  let bits := if num = 0 then 0 else nearestBits num den
  Float.ofBits (UInt64.ofNat (if negative then signBit + bits else bits))

/-- The double with the given sign nearest to `m · 10 ^ e`.  Beyond some 400 digits on either side
of the point the nearest double is infinity or zero, and the power is not computed. -/
def ofDecimal (negative : Bool) (m : Nat) (e : Int) : Float :=
  let magnitude : Int := (m.log2 : Int) * 30103 / 100000 + e
  if m = 0 || magnitude < -400 then ofQuotient negative 0 1
  else if 400 < magnitude then
    Float.ofBits (if negative then 0xFFF0000000000000 else 0x7FF0000000000000)
  else if 0 ≤ e then ofQuotient negative (m * Nat.pow 10 e.toNat) 1
  else ofQuotient negative m (Nat.pow 10 (-e).toNat)

/-- Positive infinity. -/
def infinity : Float :=
  Float.ofBits 0x7FF0000000000000

/-- Negative infinity. -/
def negativeInfinity : Float :=
  Float.ofBits 0xFFF0000000000000

/-- The value that is no number. -/
def notANumber : Float :=
  Float.ofBits 0x7FF8000000000000

/-- The double nearest to an integer; none when it is beyond the largest double. -/
def ofInt? (n : Int) : Option Float :=
  let x := ofQuotient (n < 0) n.natAbs 1
  match form x with
  | .finite .. => some x
  | _ => none

/-- The integer that a double is equal to, if it is one. -/
def toInt? (x : Float) : Option Int :=
  match form x with
  | .finite negative m e =>
    let signed (n : Nat) : Int := if negative then -n else n
    if 0 ≤ e then some (signed (m * Nat.pow 2 e.toNat))
    else
      let p := Nat.pow 2 (-e).toNat
      if m % p = 0 then some (signed (m / p)) else none
  | _ => none

/-- Whether a double and an integer are the same number. -/
def equalsInt (x : Float) (n : Int) : Bool :=
  toInt? x == some n

end Storyline.Number
