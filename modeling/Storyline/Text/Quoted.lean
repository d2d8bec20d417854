import Storyline.Text.Digit
import Storyline.Text.Printable

/-!
# Quoted text

Text in quotes as messages show it: the quote that the text does not use, a backslash before what
would end or change the text, and code points for what cannot be seen.

## Main definitions

* `quoted`: a text in quotes
* `quotedBytes`: a row of bytes in quotes
-/

namespace Storyline.Text

/-- The quote around a text: double if it holds single quotes and no double ones. -/
def quoteFor (s : List Char) : Char :=
  if s.contains '\'' && !s.contains '"' then '"' else '\''

/-- A character that cannot be shown, by its code point. -/
def codeEscape (c : Char) : List Char :=
  let n := c.toNat
  if n < 0x100 then '\\' :: 'x' :: hexDigits 2 n
  else if n < 0x10000 then '\\' :: 'u' :: hexDigits 4 n
  else '\\' :: 'U' :: hexDigits 8 n

/-- A character as it stands between quotes `q`. -/
def quotedChar (q c : Char) : List Char :=
  if c = q || c = '\\' then ['\\', c]
  else if c = '\t' then ['\\', 't']
  else if c = '\n' then ['\\', 'n']
  else if c = '\r' then ['\\', 'r']
  else if isPrintable c then [c]
  else codeEscape c

/-- A text in quotes. -/
def quoted (s : List Char) : List Char :=
  let q := quoteFor s
  q :: s.flatMap (quotedChar q) ++ [q]

/-- A string in quotes. -/
def quotedString (s : String) : String :=
  String.ofList (quoted s.toList)

/-- Bytes in quotes after the letter `b`: ASCII as text, the others by number. -/
def quotedBytes (bs : List UInt8) : String :=
  let cs := bs.map fun b => Char.ofNat b.toNat
  let q := quoteFor cs
  let body := cs.flatMap fun c => if c.toNat < 0x7F then quotedChar q c else codeEscape c
  String.ofList ('b' :: q :: body ++ [q])

end Storyline.Text
