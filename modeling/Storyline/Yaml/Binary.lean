import Storyline.Yaml.Fault

/-!
# Bytes in a YAML text

Bytes written as text in base sixty-four: four characters for three bytes, equals signs where the
last bytes are missing.  Characters that are no digits are passed over.

## Main definitions

* `sixtyFourValue?`: the value of a digit in base sixty-four
* `bytesOf`: the bytes that a text spells
-/

namespace Storyline.Yaml

open Text

/-- The value of a digit in base sixty-four. -/
def sixtyFourValue? (c : Char) : Option Nat :=
  if 'A' ≤ c && c ≤ 'Z' then some (c.toNat - 'A'.toNat)
  else if 'a' ≤ c && c ≤ 'z' then some (c.toNat - 'a'.toNat + 26)
  else if c.isDigit then some (c.toNat - '0'.toNat + 52)
  else if c = '+' then some 62
  else if c = '/' then some 63
  else none

/-- The digits of a text up to the end that padding marks, and whether it is marked.  `place` is the
number of digits in the open group of four, `pads` that of padding characters since the last
digit. -/
def sixtyFourDigits : Nat → Nat → List Char → List Nat × Bool
  | _, _, [] => ([], false)
  | place, pads, c :: r =>
    if c = '=' then
      if 2 ≤ place then
        if 4 ≤ place + pads + 1 then ([], true) else sixtyFourDigits place (pads + 1) r
      else sixtyFourDigits place pads r
    else match sixtyFourValue? c with
      | some d =>
        let (ds, ended) := sixtyFourDigits ((place + 1) % 4) 0 r
        (d :: ds, ended)
      | none => sixtyFourDigits place pads r

/-- The bytes of groups of four digits; an incomplete group gives the bytes it has in full. -/
def bytesOfDigits : List Nat → List UInt8
  | a :: b :: c :: d :: r =>
    .ofNat (a * 4 + b / 16) :: .ofNat (b % 16 * 16 + c / 4) :: .ofNat (c % 4 * 64 + d) ::
      bytesOfDigits r
  | [a, b, c] => [.ofNat (a * 4 + b / 16), .ofNat (b % 16 * 16 + c / 4)]
  | [a, b] => [.ofNat (a * 4 + b / 16)]
  | _ => []

/-- The words for characters that are not ASCII. -/
def asciiReason (s : List Char) : Option String :=
  let before := s.takeWhile fun c => c.toNat < 0x80
  let run := (s.drop before.length).takeWhile fun c => 0x80 ≤ c.toNat
  match run with
  | [] => none
  | [c] =>
    let shown := String.ofList ('\'' :: codeEscape c ++ ['\''])
    let place := before.length
    some (s!"'ascii' codec can't encode character {shown} in position {place}: " ++
      "ordinal not in range(128)")
  | _ =>
    let place := before.length
    let last := before.length + run.length - 1
    some (s!"'ascii' codec can't encode characters in position {place}-{last}: " ++
      "ordinal not in range(128)")

/-- The bytes that a text spells. -/
def bytesOf (s : List Char) : Except Problem (List UInt8) :=
  match asciiReason s with
  | some reason => .error (.notAscii reason)
  | none =>
    let (ds, ended) := sixtyFourDigits 0 0 s
    if ended || ds.length % 4 = 0 then .ok (bytesOfDigits ds)
    else if ds.length % 4 = 1 then
      let count := ds.length / 4 * 4 + 1
      .error (.badPadding ("Invalid base64-encoded string: number of data characters " ++
        s!"({count}) cannot be 1 more than a multiple of 4"))
    else .error (.badPadding "Incorrect padding")

end Storyline.Yaml
