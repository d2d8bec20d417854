import Storyline.Text.Digit
import Storyline.Value.Basic

/-!
# Writing JSON

The text of data as JSON over several lines.  Characters are written as they are except for quotes,
backslashes and control characters; doubles have the fewest digits that read back.

## Main definitions

* `quoted`: a string as it is written
* `floatLayout`: how doubles are written
* `render`: data as it is written
-/

namespace Storyline.Json

/-- A character between quotes. -/
def quotedChar (c : Char) : List Char :=
  if c = '"' || c = '\\' then ['\\', c]
  else if c = '\n' then ['\\', 'n']
  else if c = '\r' then ['\\', 'r']
  else if c = '\t' then ['\\', 't']
  else if c = '\x08' then ['\\', 'b']
  else if c = '\x0c' then ['\\', 'f']
  else if c.toNat < 0x20 then '\\' :: 'u' :: Text.hexDigits 4 c.toNat
  else [c]

/-- A string as it is written. -/
def quoted (s : String) : List Char :=
  '"' :: s.toList.flatMap quotedChar ++ ['"']

/-- Doubles in JSON.  What is no finite number is written by name, which JSON proper does not
know. -/
def floatLayout : Number.Layout :=
  { infinite := "Infinity", negativeInfinite := "-Infinity", nan := "NaN" }

/-- A line break and the indentation of a depth. -/
def newLine (indent depth : Nat) : List Char :=
  '\n' :: List.replicate (indent * depth) ' '

/-- Texts of parts between brackets, each on a line of its own. -/
def bracketed (opening closing : Char) (indent depth : Nat) (parts : List (List Char)) :
    List Char :=
  if parts.isEmpty then [opening, closing]
  else
    opening :: newLine indent (depth + 1) ++
      List.intercalate (',' :: newLine indent (depth + 1)) parts ++
      newLine indent depth ++ [closing]

mutual

/-- Data as it is written at a depth; every depth is indented by `indent` more spaces. -/
def renderAt (indent depth : Nat) : Value → Except NumberFault (List Char)
  | .bool b => .ok (if b then "true" else "false").toList
  | .int n => (Number.writeInt n).map String.toList
  | .float x => .ok (Number.render floatLayout x).toList
  | .str s => .ok (quoted s)
  | .list items => do
    return bracketed '[' ']' indent depth (← renderItems indent (depth + 1) items)
  | .map entries => do
    return bracketed '\x7b' '\x7d' indent depth (← renderEntries indent (depth + 1) entries)
  | _ => .ok "null".toList

/-- The items of a list as they are written. -/
def renderItems (indent depth : Nat) : List Value → Except NumberFault (List (List Char))
  | [] => .ok []
  | v :: vs => do
    let text ← renderAt indent depth v
    return text :: (← renderItems indent depth vs)

/-- The entries of a mapping with names as keys as they are written; other entries are left out. -/
def renderEntries (indent depth : Nat) :
    List (Value × Value) → Except NumberFault (List (List Char))
  | [] => .ok []
  | (.str k, v) :: es => do
    let text ← renderAt indent depth v
    return (quoted k ++ [':', ' '] ++ text) :: (← renderEntries indent depth es)
  | _ :: es => renderEntries indent depth es

end

/-- Data as it is written. -/
def render (indent : Nat) (v : Value) : Except NumberFault String := do
  return String.ofList (← renderAt indent 0 v)

end Storyline.Json
