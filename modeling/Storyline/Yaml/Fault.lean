import Storyline.Number.Spelled
import Storyline.Text.Quoted
import Storyline.Value.Text

/-!
# Faults of a YAML text

Why a text is not a YAML document, or has a value that means nothing.

## Main definitions

* `callRoom`: how many calls can be within each other
* `Problem`: what is wrong with the text at some line
* `Defect`: a scalar that is not what its tag says
* `Fault`: a problem with its line, a character that may not stand in a text, or a defect
-/

namespace Storyline.Yaml

open Text

/-- A character in quotes, as messages show it; the end of the text counts as NUL. -/
def shownChar (c : Option Char) : String :=
  String.ofList (quoted [c.getD '\x00'])

/-- How many calls can be within each other: of a thousand some twenty are made before a text is
looked at.  How many exactly is up to the caller, so a text that nests just as deep as there is room
for may or may not be read. -/
def callRoom : Nat :=
  980

/-- What is wrong with a text at some line. -/
inductive Problem where
  | badStart (c : Char)
  | missingColon
  | entryNotAllowed
  | keyNotAllowed
  | valueNotAllowed
  | nameExpected (found : Option Char)
  | digitExpected (found : Option Char)
  | digitOrPointExpected (found : Option Char)
  | digitOrSpaceExpected (found : Option Char)
  | spaceExpected (found : Option Char)
  | breakExpected (found : Option Char)
  | closingExpected (found : Option Char)
  | bangExpected (found : Option Char)
  | uriExpected (found : Option Char)
  | uriEscapeExpected (found : Option Char)
  | uriBytes (reason : String)
  | zeroIndentation
  | indicatorExpected (found : Option Char)
  | hexExpected (width : Nat) (found : Option Char)
  | unknownEscape (found : Option Char)
  | endInQuotes
  | separatorInQuotes
  | documentStartExpected (found : String)
  | duplicateVersion
  | incompatibleVersion
  | duplicateHandle (handle : String)
  | undefinedHandle (handle : String)
  | contentExpected (found : String)
  | blockEndExpected (found : String)
  | sequenceEndExpected (found : String)
  | mappingEndExpected (found : String)
  | undefinedAlias (name : String)
  | duplicateAnchor
  | secondDocument
  | unknownTag (tag : String)
  | scalarExpected (found : String)
  | sequenceNodeExpected (found : String)
  | mappingNodeExpected (found : String)
  | sequenceExpected (found : String)
  | pairExpected (found : String)
  | singlePairExpected (count : Nat)
  | unhashableKey
  | mergeItemExpected (found : String)
  | mergeExpected (found : String)
  | notAscii (reason : String)
  | badPadding (reason : String)
  | nestedTooDeep
  deriving Repr, DecidableEq

/-- The words of a problem. -/
def Problem.message : Problem → String
  | .badStart c => "found character " ++ shownChar (some c) ++ " that cannot start any token"
  | .missingColon => "could not find expected ':'"
  | .entryNotAllowed => "sequence entries are not allowed here"
  | .keyNotAllowed => "mapping keys are not allowed here"
  | .valueNotAllowed => "mapping values are not allowed here"
  | .nameExpected c => "expected alphabetic or numeric character, but found " ++ shownChar c
  | .digitExpected c => "expected a digit, but found " ++ shownChar c
  | .digitOrPointExpected c => "expected a digit or '.', but found " ++ shownChar c
  | .digitOrSpaceExpected c => "expected a digit or ' ', but found " ++ shownChar c
  | .spaceExpected c => "expected ' ', but found " ++ shownChar c
  | .breakExpected c => "expected a comment or a line break, but found " ++ shownChar c
  | .closingExpected c => "expected '>', but found " ++ shownChar c
  | .bangExpected c => "expected '!', but found " ++ shownChar c
  | .uriExpected c => "expected URI, but found " ++ shownChar c
  | .uriEscapeExpected c =>
    "expected URI escape sequence of 2 hexadecimal numbers, but found " ++ shownChar c
  | .uriBytes reason => reason
  | .zeroIndentation => "expected indentation indicator in the range 1-9, but found 0"
  | .indicatorExpected c => "expected chomping or indentation indicators, but found " ++ shownChar c
  | .hexExpected width c =>
    s!"expected escape sequence of {width} hexadecimal numbers, but found " ++ shownChar c
  | .unknownEscape c => "found unknown escape character " ++ shownChar c
  | .endInQuotes => "found unexpected end of stream"
  | .separatorInQuotes => "found unexpected document separator"
  | .documentStartExpected found => "expected '<document start>', but found " ++ quotedString found
  | .duplicateVersion => "found duplicate YAML directive"
  | .incompatibleVersion => "found incompatible YAML document (version 1.* is required)"
  | .duplicateHandle handle => "duplicate tag handle " ++ quotedString handle
  | .undefinedHandle handle => "found undefined tag handle " ++ quotedString handle
  | .contentExpected found => "expected the node content, but found " ++ quotedString found
  | .blockEndExpected found => "expected <block end>, but found " ++ quotedString found
  | .sequenceEndExpected found => "expected ',' or ']', but got " ++ quotedString found
  | .mappingEndExpected found => "expected ',' or '\x7d', but got " ++ quotedString found
  | .undefinedAlias name => "found undefined alias " ++ quotedString name
  | .duplicateAnchor => "second occurrence"
  | .secondDocument => "but found another document"
  | .unknownTag tag => "could not determine a constructor for the tag " ++ quotedString tag
  | .scalarExpected found => s!"expected a scalar node, but found {found}"
  | .sequenceNodeExpected found => s!"expected a sequence node, but found {found}"
  | .mappingNodeExpected found => s!"expected a mapping node, but found {found}"
  | .sequenceExpected found => s!"expected a sequence, but found {found}"
  | .pairExpected found => s!"expected a mapping of length 1, but found {found}"
  | .singlePairExpected count => s!"expected a single mapping item, but found {count} items"
  | .unhashableKey => "found unhashable key"
  | .mergeItemExpected found => s!"expected a mapping for merging, but found {found}"
  | .mergeExpected found =>
    s!"expected a mapping or list of mappings for merging, but found {found}"
  | .notAscii reason => s!"failed to convert base64 data into ascii: {reason}"
  | .badPadding reason => s!"failed to decode base64 data: {reason}"
  | .nestedTooDeep => "nested too deep"

/-- A scalar that is not what its tag says. -/
inductive Defect where
  | number (fault : NumberFault)
  | notInt (base : Nat) (text : String)
  | notFloat (text : String)
  | year (n : Nat)
  | month
  | day
  | hour
  | minute
  | second
  | offset (minutes : Int)
  /-- A number beyond the last code point. -/
  | codePoint
  /-- A number that not even a signed word of 32 bits holds. -/
  | wideCodePoint
  | emptyNumber
  | notBool (word : String)
  | notMoment
  /-- A collection that stands for a date: its text is found, but the date is read from itself. -/
  | notText
  /-- More calls within each other than there is room for. -/
  | recursion
  deriving Repr, DecidableEq

/-- The words of a defect. -/
def Defect.message : Defect → String
  | .number f => f.message
  | .notInt base text => Number.notSpelledMessage base text
  | .notFloat text => "could not convert string to float: " ++ quotedString text
  | .year n => s!"year {n} is out of range"
  | .month => "month must be in 1..12"
  | .day => "day is out of range for month"
  | .hour => "hour must be in 0..23"
  | .minute => "minute must be in 0..59"
  | .second => "second must be in 0..59"
  | .offset minutes =>
    "offset must be a timedelta strictly between -timedelta(hours=24) and timedelta(hours=24), not "
      ++ durationLiteral minutes ++ "."
  | .codePoint => "chr() arg not in range(0x110000)"
  | .wideCodePoint => "Python int too large to convert to C int"
  | .emptyNumber => "string index out of range"
  | .notBool word => quotedString word
  | .notMoment => "'NoneType' object has no attribute 'groupdict'"
  | .notText => "expected string or bytes-like object, got 'list'"
  | .recursion => "maximum recursion depth exceeded"

/-- Why a text cannot be read. -/
inductive Fault where
  /-- A character that may not stand in a text, at a place counted from zero. -/
  | unreadable (c : Char) (place : Nat)
  /-- A problem at a line counted from zero. -/
  | problem (p : Problem) (line : Nat)
  /-- A scalar that is not what its tag says. -/
  | defect (d : Defect)
  deriving Repr, DecidableEq

/-- The words of a character that may not stand in a text. -/
def unreadableMessage (c : Char) (place : Nat) : String :=
  let code := String.ofList (hexDigits 4 c.toNat)
  s!"unacceptable character #x{code}: special characters are not allowed\n" ++
    s!"  in \"<unicode string>\", position {place}"

end Storyline.Yaml
