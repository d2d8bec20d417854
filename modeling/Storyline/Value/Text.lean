import Storyline.Value.Basic
import Storyline.Text.Quoted

/-!
# Text of plain data

The text that stands for a piece of data where text is asked for: a string is itself, everything
else is written out, with strings inside it in quotes.

## Main definitions

* `Value.literal`: a value written out
* `Value.text`: the text that stands for a value
-/

namespace Storyline

/-- A natural number in decimal, with zeros in front up to a width. -/
def padded (width n : Nat) : String :=
  let ds := Nat.toDigits 10 n
  String.ofList (List.replicate (width - ds.length) '0' ++ ds)

namespace Date

/-- A day as year, month and day. -/
def text (d : Date) : String :=
  s!"{padded 4 d.year}-{padded 2 d.month}-{padded 2 d.day}"

/-- A day written out as a value. -/
def literal (d : Date) : String :=
  s!"datetime.date({d.year}, {d.month}, {d.day})"

end Date

/-- A length of time in minutes written out as days and seconds. -/
def durationLiteral (minutes : Int) : String :=
  let seconds := minutes * 60
  let days := seconds / 86400
  let rest := seconds % 86400
  let parts := (if days = 0 then [] else [s!"days={days}"]) ++
    (if rest = 0 then [] else [s!"seconds={rest}"])
  let arguments := if parts.isEmpty then "0" else ", ".intercalate parts
  s!"datetime.timedelta({arguments})"

namespace Moment

/-- A moment as day, time and offset. -/
def text (t : Moment) : String :=
  let fraction := if t.microsecond = 0 then "" else s!".{padded 6 t.microsecond}"
  let offset := match t.offset with
    | none => ""
    | some m =>
      let sign := if m < 0 then "-" else "+"
      s!"{sign}{padded 2 (m.natAbs / 60)}:{padded 2 (m.natAbs % 60)}"
  let time := ":".intercalate [padded 2 t.hour, padded 2 t.minute, padded 2 t.second]
  t.date.text ++ " " ++ time ++ fraction ++ offset

/-- A moment written out as a value; seconds and microseconds that are zero are left out. -/
def literal (t : Moment) : String :=
  let rest :=
    if t.microsecond ≠ 0 then [t.second, t.microsecond]
    else if t.second ≠ 0 then [t.second] else []
  let parts := [t.date.year, t.date.month, t.date.day, t.hour, t.minute] ++ rest
  let zone := match t.offset with
    | none => ""
    | some 0 => ", tzinfo=datetime.timezone.utc"
    | some m => s!", tzinfo=datetime.timezone({durationLiteral m})"
  let arguments := ", ".intercalate (parts.map toString) ++ zone
  s!"datetime.datetime({arguments})"

end Moment

namespace Value

mutual

/-- A value written out. -/
def literal : Value → Except NumberFault String
  | .null => .ok "None"
  | .bool b => .ok (if b then "True" else "False")
  | .int n => Number.writeInt n
  | .float x => .ok (Number.floatText x)
  | .str s => .ok (Text.quotedString s)
  | .date d => .ok d.literal
  | .moment t => .ok t.literal
  | .bytes bs => .ok (Text.quotedBytes bs)
  | .set members =>
    if members.isEmpty then .ok "set()"
    else do return "\x7b" ++ ", ".intercalate (← literals members) ++ "\x7d"
  | .pair a b => do return "(" ++ (← literal a) ++ ", " ++ (← literal b) ++ ")"
  | .list items => do return "[" ++ ", ".intercalate (← literals items) ++ "]"
  | .map entries => do return "\x7b" ++ ", ".intercalate (← entryLiterals entries) ++ "\x7d"

/-- Values written out one by one. -/
def literals : List Value → Except NumberFault (List String)
  | [] => .ok []
  | v :: vs => do
    let a ← literal v
    return a :: (← literals vs)

/-- Entries of a mapping written out one by one. -/
def entryLiterals : List (Value × Value) → Except NumberFault (List String)
  | [] => .ok []
  | (k, v) :: es => do
    let a ← literal k
    let b ← literal v
    return (a ++ ": " ++ b) :: (← entryLiterals es)

end

/-- The text that stands for a value. -/
def text : Value → Except NumberFault String
  | .str s => .ok s
  | .date d => .ok d.text
  | .moment t => .ok t.text
  | v => v.literal

end Value

end Storyline
