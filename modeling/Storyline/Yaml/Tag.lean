import Storyline.Yaml.Time

/-!
# Tags

What a plain scalar is: nothing, a truth value, a number, a date or a string, told by its form
alone.  The same forms tell a writer which strings need quotes.

## Main definitions

* `Tag`: the tags that values are made from, and any other
* `Tag.ofPlain`: the tag of a plain scalar
-/

namespace Storyline.Yaml

/-- The tag of a value. -/
inductive Tag where
  | null
  | bool
  | int
  | float
  | binary
  | timestamp
  | omap
  | pairs
  | set
  | str
  | seq
  | map
  | merge
  | value
  | yaml
  | other (name : String)
  deriving Repr, DecidableEq

/-- What the tags of the standard start with. -/
def standardHandle : String :=
  "tag:yaml.org,2002:"

/-- The tags of the standard with their short names. -/
def standardTags : List (Tag × String) :=
  [(.null, "null"), (.bool, "bool"), (.int, "int"), (.float, "float"), (.binary, "binary"),
    (.timestamp, "timestamp"), (.omap, "omap"), (.pairs, "pairs"), (.set, "set"), (.str, "str"),
    (.seq, "seq"), (.map, "map"), (.merge, "merge"), (.value, "value"), (.yaml, "yaml")]

/-- The full name of a tag. -/
def Tag.name : Tag → String
  | .other name => name
  | t => standardHandle ++ ((standardTags.lookup t).getD "")

/-- The tag with a full name. -/
def Tag.ofName (name : String) : Tag :=
  match standardTags.find? fun p => standardHandle ++ p.2 == name with
  | some p => p.1
  | none => .other name

/-! ## Forms of plain scalars -/

/-- A digit or an underscore. -/
def isNumeral (c : Char) : Bool :=
  c.isDigit || c == '_'

/-- The rest of a text after a sign, if there is one. -/
def afterSign : List Char → List Char
  | '-' :: r => r
  | '+' :: r => r
  | r => r

/-- Whether a text is one or more groups of a colon and a number below sixty, and then `rest`. -/
def isSexagesimal (rest : List Char → Bool) : List Char → Bool
  | ':' :: a :: b :: r =>
    ('0' ≤ a && a ≤ '5' && b.isDigit && (rest r || isSexagesimal rest r)) ||
      (a.isDigit && (rest (b :: r) || isSexagesimal rest (b :: r)))
  | [':', a] => a.isDigit && rest []
  | _ => false

/-- A truth value. -/
def isBoolForm (s : List Char) : Bool :=
  ["yes", "Yes", "YES", "no", "No", "NO", "true", "True", "TRUE", "false", "False", "FALSE", "on",
    "On", "ON", "off", "Off", "OFF"].contains (String.ofList s)

/-- Nothing. -/
def isNullForm (s : List Char) : Bool :=
  ["~", "null", "Null", "NULL", ""].contains (String.ofList s)

/-- An integer: in binary, octal, decimal, hexadecimal or in base sixty. -/
def isIntForm (s : List Char) : Bool :=
  match afterSign s with
  | '0' :: r =>
    r.all (fun c => ('0' ≤ c && c ≤ '7') || c == '_') ||
      (match r with
        | 'b' :: d :: ds => (d :: ds).all fun c => c == '0' || c == '1' || c == '_'
        | 'x' :: d :: ds => (d :: ds).all fun c => (Text.hexValue? c).isSome || c == '_'
        | _ => false)
  | c :: r =>
    c.isDigit && (r.all isNumeral || isSexagesimal List.isEmpty (r.dropWhile isNumeral))
  | [] => false

/-- An exponent with a sign, or nothing. -/
def isExponentForm : List Char → Bool
  | [] => true
  | e :: sign :: d :: ds =>
    (e == 'e' || e == 'E') && (sign == '-' || sign == '+') && (d :: ds).all Char.isDigit
  | _ => false

/-- The digits and underscores behind a point, with an exponent after them. -/
def isFractionForm (s : List Char) : Bool :=
  isExponentForm (s.dropWhile isNumeral)

/-- A double: with a point, in base sixty, infinite or not a number. -/
def isFloatForm (s : List Char) : Bool :=
  let decimal := match afterSign s with
    | c :: r =>
      c.isDigit && (match r.dropWhile isNumeral with
        | '.' :: t => isFractionForm t
        | _ => false)
    | [] => false
  let pointFirst := match s with
    | '.' :: c :: r => c.isDigit && isFractionForm r
    | _ => false
  let sexagesimal := match afterSign s with
    | c :: r =>
      c.isDigit && isSexagesimal
        (fun t => match t with
          | '.' :: u => u.all isNumeral
          | _ => false)
        (r.dropWhile isNumeral)
    | [] => false
  let infinite := [".inf", ".Inf", ".INF"].contains (String.ofList (afterSign s))
  let nan := [".nan", ".NaN", ".NAN"].contains (String.ofList s)
  decimal || pointFirst || sexagesimal || infinite || nan

/-- A date, alone with two digits each for month and day, or with a time of day. -/
def isTimestampForm (s : List Char) : Bool :=
  (Stamp.read? s).any fun t => t.full || t.clock.isSome

/-- The tag of a plain scalar, told by its form.  One line feed at the end does not count. -/
def Tag.ofPlain (text : List Char) : Tag :=
  let s := if text.getLast? = some '\n' then text.dropLast else text
  if text.isEmpty then .null
  else if s.isEmpty then .str
  else if isBoolForm s then .bool
  else if isFloatForm s then .float
  else if isIntForm s then .int
  else if s = "<<".toList then .merge
  else if isNullForm s then .null
  else if isTimestampForm s then .timestamp
  else if s = ['='] then .value
  else if s = ['!'] || s = ['&'] || s = ['*'] then .yaml
  else .str

end Storyline.Yaml
