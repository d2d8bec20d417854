import Storyline.Scalar

/-!
# Plain data

The values that front matter, generation blocks and exchanged documents are made of, before they are
read as parts of a story: nothing, scalars, dates, bytes, sets, lists and mappings.  Keys of a
mapping may be any scalar.

## Main definitions

* `Date`, `Moment`: a day, and a time of day on it with an optional offset
* `Value`: a piece of data
* `Value.depth`: how deep a value nests
* `Value.sameKey`: when two values are one key of a mapping
* `Value.insert`, `Value.lookup?`: mappings whose keys are values
-/

namespace Storyline

/-- A day of the calendar. -/
structure Date where
  year : Nat
  month : Nat
  day : Nat
  deriving Repr, DecidableEq

/-- A time of day; the offset from universal time is in minutes, none if it is not known. -/
structure Moment where
  date : Date
  hour : Nat
  minute : Nat
  second : Nat
  microsecond : Nat
  offset : Option Int
  deriving Repr, DecidableEq

/-- A piece of data. -/
inductive Value where
  | null
  | bool (b : Bool)
  | int (n : Int)
  | float (x : Float)
  | str (s : String)
  | date (d : Date)
  | moment (t : Moment)
  | bytes (bs : List UInt8)
  | set (members : List Value)
  | pair (first second : Value)
  | list (items : List Value)
  | map (entries : List (Value × Value))
  deriving Repr, Inhabited

namespace Value

/-- The value of a scalar. -/
def ofScalar : Scalar → Value
  | .bool b => .bool b
  | .int n => .int n
  | .float x => .float x
  | .str s => .str s

/-- The scalar that a value is, of exactly its kind. -/
def scalar? : Value → Option Scalar
  | .bool b => some (.bool b)
  | .int n => some (.int n)
  | .float x => some (.float x)
  | .str s => some (.str s)
  | _ => none

/-- The value of text that may be missing. -/
def ofString? : Option String → Value
  | some s => .str s
  | none => .null

/-- A mapping with names as keys. -/
def record (fields : List (String × Value)) : Value :=
  .map (fields.map fun p => (.str p.1, p.2))

/-- A mapping with names as keys, in the order of the names. -/
def ofMapping {α : Type} (f : α → Value) (m : Mapping α) : Value :=
  record (m.toList.map fun p => (p.1, f p.2))

/-- Whether a value counts as nothing: zero, false and everything empty does. -/
def countsAsNothing : Value → Bool
  | .null => true
  | .bool b => !b
  | .int n => n == 0
  | .float x => x == 0
  | .str s => s.isEmpty
  | .bytes bs => bs.isEmpty
  | .set members => members.isEmpty
  | .list items => items.isEmpty
  | .map entries => entries.isEmpty
  | _ => false

mutual

/-- How many collections are within each other in a value. -/
def depth : Value → Nat
  | .set members => depthOfAll members + 1
  | .pair first second => max (depth first) (depth second) + 1
  | .list items => depthOfAll items + 1
  | .map entries => depthOfEntries entries + 1
  | _ => 0

/-- How many collections are within each other in the deepest of some values. -/
def depthOfAll : List Value → Nat
  | [] => 0
  | v :: vs => max (depth v) (depthOfAll vs)

/-- How many collections are within each other in the deepest of some entries. -/
def depthOfEntries : List (Value × Value) → Nat
  | [] => 0
  | (k, v) :: es => max (max (depth k) (depth v)) (depthOfEntries es)

end

theorem depthOfAll_le_iff {vs : List Value} {d : Nat} :
    depthOfAll vs ≤ d ↔ ∀ v ∈ vs, v.depth ≤ d := by
  induction vs with
  | nil => simp [depthOfAll]
  | cons v vs ih => rw [depthOfAll, Nat.max_le, ih, List.forall_mem_cons]

theorem depthOfEntries_le_iff {es : List (Value × Value)} {d : Nat} :
    depthOfEntries es ≤ d ↔ ∀ e ∈ es, e.1.depth ≤ d ∧ e.2.depth ≤ d := by
  induction es with
  | nil => simp [depthOfEntries]
  | cons e es ih =>
    obtain ⟨k, v⟩ := e
    rw [depthOfEntries, Nat.max_le, Nat.max_le, ih, List.forall_mem_cons]

theorem depth_list_le_iff {vs : List Value} {d : Nat} :
    (list vs).depth ≤ d + 1 ↔ ∀ v ∈ vs, v.depth ≤ d := by
  rw [depth, Nat.add_le_add_iff_right, depthOfAll_le_iff]

theorem depth_map_le_iff {es : List (Value × Value)} {d : Nat} :
    (map es).depth ≤ d + 1 ↔ ∀ e ∈ es, e.1.depth ≤ d ∧ e.2.depth ≤ d := by
  rw [depth, Nat.add_le_add_iff_right, depthOfEntries_le_iff]

/-- The number that a value counts as when keys are compared: truth values are one and zero. -/
def keyNumber? : Value → Option Number
  | .bool b => some (.int (if b then 1 else 0))
  | .int n => some (.int n)
  | .float x => some (.float x)
  | _ => none

/-- The days before a year in the calendar extended back to the year one. -/
def daysBeforeYear (year : Nat) : Int :=
  let y : Int := year - 1
  y * 365 + y / 4 - y / 100 + y / 400

/-- Whether a year has a 29th of February. -/
def isLeap (year : Nat) : Bool :=
  year % 4 == 0 && (year % 100 != 0 || year % 400 == 0)

/-- The number of days of a month. -/
def daysInMonth (year month : Nat) : Nat :=
  if month = 2 then (if isLeap year then 29 else 28)
  else if [4, 6, 9, 11].contains month then 30 else 31

/-- The number of a day, counted from the start of the calendar. -/
def dayNumber (d : Date) : Int :=
  let months := (List.range (d.month - 1)).foldl (fun n m => n + daysInMonth d.year (m + 1)) 0
  daysBeforeYear d.year + months + d.day

/-- The microseconds of a moment since the start of the calendar, in universal time if the offset is
known. -/
def instant (t : Moment) : Int :=
  let minutes := (dayNumber t.date * 24 + t.hour) * 60 + t.minute - t.offset.getD 0
  (minutes * 60 + t.second) * 1000000 + t.microsecond

/-- Whether two values are one key of a mapping.  Numbers of equal value are one key, also a truth
value and a number; moments are one key when they are the same instant. -/
def sameKey : Value → Value → Bool
  | .null, .null => true
  | .str s, .str t => s == t
  | .date d, .date e => d == e
  | .moment t, .moment u => t.offset.isSome == u.offset.isSome && instant t == instant u
  | .bytes a, .bytes b => a == b
  | a, b =>
    match a.keyNumber?, b.keyNumber? with
    | some (.float x), some (.float y) => x == y || (x.isNaN && y.isNaN)
    | some m, some n => Operand.numbersEqual m n
    | _, _ => false

/-- Writes a value to a key among entries: in place if the key is there, else at the end.  The first
spelling of a key stays. -/
def insertEntry (k v : Value) : List (Value × Value) → List (Value × Value)
  | [] => [(k, v)]
  | e :: r => if e.1.sameKey k then (e.1, v) :: r else e :: insertEntry k v r

/-- The value at a name among entries. -/
def find? (entries : List (Value × Value)) (name : String) : Option Value :=
  (entries.find? fun e => match e.1 with | .str s => s == name | _ => false).map (·.2)

/-- The value at a name of a mapping; none in any other value. -/
def lookup? (v : Value) (name : String) : Option Value :=
  match v with
  | .map entries => find? entries name
  | _ => none

end Value

end Storyline
