import Storyline.Yaml.Token

/-!
# Directives, anchors and tags of a YAML text

The tokens that stand beside a value: lines that start with a percent sign, names for values, and
the tags that say what a value is.

## Main definitions

* `directive`, `anchorName`, `tagWord`: the tokens that start at a cursor
-/

namespace Storyline.Yaml

open Text

/-- The characters of names of anchors, handles and directives. -/
def isYamlName (c : Char) : Bool :=
  c.isAlphanum || c == '-' || c == '_'

/-- The characters of tags. -/
def isUriChar (c : Char) : Bool :=
  c.isAlphanum || "-;/?:@&=+$,_.!~*'()[]%".toList.contains c

/-- Whether a character ends a word on a line: a space or the end of the line. -/
def isSpaceOrBreak (c : Char) : Bool :=
  c == ' ' || isBreak c

/-! ## Tags -/

/-- The position of the first byte that is wrong in a text in UTF-8, the number of bytes up to it
that belong together, and the reason. -/
def utf8Fault? (place : Nat) : List Nat → Option (Nat × Nat × String)
  | [] => none
  | b :: r =>
    let follow (n : Nat) (low high : Nat) : Option (Nat × Nat × String) :=
      let rec check (k : Nat) (low high : Nat) : Nat → List Nat → Option (Nat × Nat × String)
        | 0, _ => none
        | _ + 1, [] => some (place, k, "unexpected end of data")
        | n + 1, d :: ds =>
          if low ≤ d && d ≤ high then check (k + 1) 0x80 0xBF n ds
          else some (place, k, "invalid continuation byte")
      match check 1 low high n r with
      | some f => some f
      | none => utf8Fault? (place + n + 1) (r.drop n)
    if b < 0x80 then utf8Fault? (place + 1) r
    else if b < 0xC2 then some (place, 1, "invalid start byte")
    else if b < 0xE0 then follow 1 0x80 0xBF
    else if b = 0xE0 then follow 2 0xA0 0xBF
    else if b = 0xED then follow 2 0x80 0x9F
    else if b < 0xF0 then follow 2 0x80 0xBF
    else if b = 0xF0 then follow 3 0x90 0xBF
    else if b < 0xF4 then follow 3 0x80 0xBF
    else if b = 0xF4 then follow 3 0x80 0x8F
    else some (place, 1, "invalid start byte")
termination_by bs => bs.length
decreasing_by all_goals simp; try omega

/-- The words for bytes that are no text. -/
def utf8Reason (bs : List Nat) (f : Nat × Nat × String) : String :=
  let (place, count, reason) := f
  if count = 1 then
    let byte := String.ofList (hexDigits 2 ((bs[place]?).getD 0))
    s!"'utf-8' codec can't decode byte 0x{byte} in position {place}: {reason}"
  else
    let last := place + count - 1
    s!"'utf-8' codec can't decode bytes in position {place}-{last}: {reason}"

/-- The bytes that escapes with a percent sign spell, and the place after them. -/
def uriBytes : Nat → Cursor → Except Fault (List Nat × Cursor)
  | 0, c => .ok ([], c)
  | fuel + 1, c =>
    match c.rest with
    | '%' :: a :: b :: _ =>
      match hexValue? a, hexValue? b with
      | some x, some y => do
        let (bs, c) ← uriBytes fuel (c.steps 3)
        return ((x * 16 + y) :: bs, c)
      | some _, none => c.fail (.uriEscapeExpected (some b))
      | none, _ => c.fail (.uriEscapeExpected (some a))
    | ['%', a] => c.fail (.uriEscapeExpected (if (hexValue? a).isSome then none else some a))
    | ['%'] => c.fail (.uriEscapeExpected none)
    | _ => .ok ([], c)

/-- The text of a tag from here on, as characters and escapes. -/
def uriText : Nat → Cursor → Except Fault (List Char × Cursor)
  | 0, c => .ok ([], c)
  | fuel + 1, c =>
    if c.peek == some '%' then do
      let (bs, d) ← uriBytes (c.rest.length + 1) c
      match utf8Fault? 0 bs with
      | some f => c.fail (.uriBytes (utf8Reason bs f))
      | none =>
        let text := (String.fromUTF8? ⟨(bs.map UInt8.ofNat).toArray⟩).getD ""
        let (r, d) ← uriText fuel d
        return (text.toList ++ r, d)
    else if c.peek.any isUriChar then do
      let (run, c) := c.span fun ch => isUriChar ch && ch ≠ '%'
      let (r, c) ← uriText fuel c
      return (run ++ r, c)
    else .ok ([], c)

/-- The text of a tag, of at least one character. -/
def uri (c : Cursor) : Except Fault (String × Cursor) := do
  if c.peek.any isUriChar then
    let (s, c) ← uriText (c.rest.length + 1) c
    return (String.ofList s, c)
  else c.fail (.uriExpected c.peek)

/-- The handle of a tag: an exclamation mark, alone or with a name and a second one. -/
def tagHandle (c : Cursor) : Except Fault (String × Cursor) :=
  if c.peek != some '!' then c.fail (.bangExpected c.peek)
  else
    let d := c.step
    if d.peek == some ' ' then .ok ("!", d)
    else
      let (name, d) := d.span isYamlName
      if d.peek == some '!' then .ok (String.ofList ('!' :: name ++ ['!']), d.step)
      else d.fail (.bangExpected d.peek)

/-- The tag that starts at the cursor: handle and suffix. -/
def tagWord (c : Cursor) : Except Fault (Word × Cursor) := do
  let (handle, suffix, c) ←
    match c.peekAt 1 with
    | some '<' => do
      let (suffix, c) ← uri (c.steps 2)
      if c.peek == some '>' then pure ((none : Option String), suffix, c.step)
      else c.fail (.closingExpected c.peek)
    | next =>
      if next.all isSeparator then pure (none, "!", c.step)
      else if (c.step.rest.takeWhile fun ch => !isSpaceOrBreak ch).contains '!' then do
        let (handle, c) ← tagHandle c
        let (suffix, c) ← uri c
        pure (some handle, suffix, c)
      else do
        let (suffix, c) ← uri c.step
        pure (some "!", suffix, c)
  if c.atEndOr isSpaceOrBreak then return (.tag handle suffix, c)
  else c.fail (.spaceExpected c.peek)

/-! ## Anchors and aliases -/

/-- Whether a character may follow the name of an anchor. -/
def endsAnchor (c : Char) : Bool :=
  isSeparator c || "?:,]\x7d%@`".toList.contains c

/-- The name after the sign of an anchor or alias. -/
def anchorName (c : Cursor) : Except Fault (String × Cursor) :=
  let (name, d) := c.step.span isYamlName
  if name.isEmpty || !d.atEndOr endsAnchor then d.fail (.nameExpected d.peek)
  else .ok (String.ofList name, d)

/-! ## Directives -/

/-- A number in a directive. -/
def versionNumber (c : Cursor) : Except Fault (Nat × Cursor) :=
  let (ds, d) := c.span Char.isDigit
  if ds.isEmpty then c.fail (.digitExpected c.peek)
  else if digitLimit < ds.length then .error (.defect (.number (.tooManyDigits ds.length)))
  else .ok (ofDigits 10 (ds.map fun ch => ch.toNat - 0x30), d)

/-- The version that a directive asks for. -/
def versionDirective (c : Cursor) : Except Fault (Directive × Cursor) := do
  let (major, c) ← versionNumber (c.skip (· == ' '))
  if c.peek != some '.' then c.fail (.digitOrPointExpected c.peek)
  else
    let (minor, c) ← versionNumber c.step
    if c.atEndOr isSpaceOrBreak then return (.version major minor, c)
    else c.fail (.digitOrSpaceExpected c.peek)

/-- The handle that a directive explains. -/
def handleDirective (c : Cursor) : Except Fault (Directive × Cursor) := do
  let (handle, c) ← tagHandle (c.skip (· == ' '))
  if c.peek != some ' ' then c.fail (.spaceExpected c.peek)
  else
    let (replacement, c) ← uri (c.skip (· == ' '))
    if c.atEndOr isSpaceOrBreak then return (.handle handle replacement, c)
    else c.fail (.spaceExpected c.peek)

/-- The directive that starts at the cursor, with the rest of its line. -/
def directive (c : Cursor) : Except Fault (Directive × Cursor) := do
  let (name, c) := c.step.span isYamlName
  if name.isEmpty || !c.atEndOr isSpaceOrBreak then c.fail (.nameExpected c.peek)
  else
    let (d, c) ←
      if name = "YAML".toList then versionDirective c
      else if name = "TAG".toList then handleDirective c
      else pure (.other, c.skip fun ch => !isBreak ch)
    let c := c.skip (· == ' ')
    let c := if c.peek == some '#' then c.skip (fun ch => !isBreak ch) else c
    if c.atEndOr isBreak then return (d, (c.lineBreak?.map (·.2)).getD c)
    else c.fail (.breakExpected c.peek)

end Storyline.Yaml
