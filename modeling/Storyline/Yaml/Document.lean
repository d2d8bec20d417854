import Storyline.Yaml.Binary
import Storyline.Yaml.Node
import Storyline.Yaml.Number

/-!
# Values of a YAML text

The data that a YAML text stands for.  A mapping may take in the entries of other mappings under the
key `<<`; its own entries win.

Faults in values are found level by level: first those of the outermost collection and its scalars,
then those of the collections in it.

## Main definitions

* `scalarValue`: the value of a scalar
* `flatten`: the entries of a mapping with those that it takes in
* `Node.toValue`, `Tree.toValue`: the value of a node, and of a document
* `load`: the value of a text
-/

namespace Storyline.Yaml

/-- A problem with a node, at its line. -/
def Node.fail {α : Type} (n : Node) (p : Problem) : Except Fault α :=
  .error (.problem p n.line)

/-- Whether the tag is that of a collection. -/
def Tag.isCollection : Tag → Bool
  | .seq | .map | .set | .omap | .pairs => true
  | _ => false

/-! ## Scalars -/

/-- The names of a document, with what they stand for. -/
abbrev Names :=
  List (String × Node)

/-- The text of a scalar.  A mapping with the key `=` counts as the scalar under that key, and the
one that is found there may be such a mapping again, as long as there is room for the calls: a
mapping that is found inside itself in this way has no text. -/
def scalarText (names : Names) : Nat → Node → Except Fault (List Char)
  | _, .scalar _ text _ => .ok text
  | 0, _ => .error (.defect .recursion)
  | room + 1, n@(.mapping _ entries _) =>
    match entries.find? fun e => e.1.tag == .value with
    | some e => scalarText names room e.2
    | none => n.fail (.scalarExpected n.kind)
  | room + 1, n@(.within name ..) =>
    match names.lookup name with
    | some m => scalarText names room m
    | none => n.fail (.scalarExpected n.kind)
  | _, n => n.fail (.scalarExpected n.kind)

/-- The words for truth values. -/
def boolWords : List (String × Bool) :=
  [("yes", true), ("no", false), ("true", true), ("false", false), ("on", true), ("off", false)]

/-- The day or moment that a text spells.  One line feed at the end does not count. -/
def momentOf (s : List Char) : Except Defect Value :=
  match Stamp.read? (if s.getLast? = some '\n' then s.dropLast else s) with
  | some t => t.value
  | none => .error .notMoment

/-- The value of a scalar. -/
def scalarValue (names : Names) (n : Node) : Except Fault Value := do
  let text := scalarText names callRoom n
  match n.tag with
  | .null => text.map fun _ => .null
  | .str => text.map fun s => .str (String.ofList s)
  | .bool =>
    let word := String.ofList ((← text).map Char.toLower)
    match boolWords.lookup word with
    | some b => return .bool b
    | none => throw (.defect (.notBool word))
  | .int => ((intValue (← text)).map Value.int).mapError .defect
  | .float => ((floatValue (← text)).map Value.float).mapError .defect
  | .binary => ((bytesOf (← text)).map Value.bytes).mapError fun p => .problem p n.line
  | .timestamp =>
    let s ← text
    match n with
    | .scalar .. => (momentOf s).mapError .defect
    -- The date is looked for in the collection itself and not in the text under its key.
    | _ => throw (.defect .notText)
  | t => n.fail (.unknownTag t.name)

/-! ## Mappings that take in others

The calls that are made here are not counted. Where mappings stand inside each other there is room
for them whenever there was room to read the text; only mappings that take in each other by name, a
thousand in a row and the last of them met first, would need more.
-/

/-- A key that is an equals sign is a string. -/
def plainKey : Node → Node
  | .scalar .value text line => .scalar .str text line
  | .sequence .value items line => .sequence .str items line
  | .mapping .value entries line => .mapping .str entries line
  | .within name isMapping .value line => .within name isMapping .str line
  | n => n

mutual

/-- The entries of a mapping, those that it takes in first. -/
def flatten : Node → Except Fault (List (Node × Node))
  | .mapping _ entries _ => do
    let (taken, own) ← flattenEntries entries
    return taken ++ own
  | _ => .ok []

/-- The entries that a mapping takes in, and its own. -/
def flattenEntries :
    List (Node × Node) → Except Fault (List (Node × Node) × List (Node × Node))
  | [] => .ok ([], [])
  | (k, v) :: r =>
    if k.tag = .merge then do
      let first ← takenFrom v
      let (taken, own) ← flattenEntries r
      return (first ++ taken, own)
    else do
      let (taken, own) ← flattenEntries r
      return (taken, (plainKey k, v) :: own)

/-- The entries that are taken in from a value: a mapping, or mappings of which the first wins. -/
def takenFrom : Node → Except Fault (List (Node × Node))
  | .mapping _ entries _ => do
    let (taken, own) ← flattenEntries entries
    return taken ++ own
  -- What comes later wins, so the first mapping is put last.
  | .sequence _ items _ => do return (← takenFromAll items).reverse.flatten
  | .scalar _ _ line => .error (.problem (.mergeExpected "scalar") line)
  | .within .. => .ok []

/-- The entries that are taken in from mappings, one by one. -/
def takenFromAll : List Node → Except Fault (List (List (Node × Node)))
  | [] => .ok []
  | .mapping _ entries _ :: r => do
    let (taken, own) ← flattenEntries entries
    return (taken ++ own) :: (← takenFromAll r)
  | .within _ true .. :: r => takenFromAll r
  | n :: _ => n.fail (.mergeItemExpected n.kind)

end

/-- The entries of a node that is to be a mapping. -/
def entriesOf (n : Node) : Except Fault (List (Node × Node)) :=
  match n with
  | .mapping .. => flatten n
  | .within _ true .. => .ok []
  | n => n.fail (.mappingNodeExpected n.kind)

/-- The items of a node that is to be a sequence. -/
def itemsOf (n : Node) : Except Fault (List Node) :=
  match n with
  | .sequence _ items _ => .ok items
  | .within _ false .. => .ok []
  | n => n.fail (.sequenceNodeExpected n.kind)

/-- The only entry of a node that is to be a mapping of one entry. -/
def pairOf (n : Node) : Except Fault (Node × Node) :=
  match n with
  | .mapping _ [e] _ => .ok e
  | .mapping _ entries _ => n.fail (.singlePairExpected entries.length)
  | .within _ true .. => n.fail (.singlePairExpected 0)
  | _ => n.fail (.pairExpected n.kind)

/-- The items of a node that is to be a sequence of pairs. -/
def pairItemsOf (n : Node) : Except Fault (List Node) :=
  match n with
  | .sequence _ items _ => .ok items
  | .within _ false .. => .ok []
  | n => n.fail (.sequenceExpected n.kind)

/-! ## Faults, level by level -/

section

variable (names : Names)

/-- The faults of a value that is met; a collection is left for the next level. -/
def meet (n : Node) : Except Fault (List Node) :=
  if n.tag.isCollection then .ok [n] else (scalarValue names n).map fun _ => []

/-- The faults of a key, which may not be a collection. -/
def meetKey (n : Node) : Except Fault Unit :=
  if n.tag.isCollection then n.fail .unhashableKey else (scalarValue names n).map fun _ => ()

/-- The faults of entries; the collections among their values are left. -/
def meetEntries : List (Node × Node) → Except Fault (List Node)
  | [] => .ok []
  | (k, v) :: r => do
    meetKey names k
    let a ← meet names v
    return a ++ (← meetEntries r)

/-- The faults of values; the collections among them are left. -/
def meetAll : List Node → Except Fault (List Node)
  | [] => .ok []
  | n :: r => do
    let a ← meet names n
    return a ++ (← meetAll r)

/-- The faults of pairs, given with their items; a key may be a collection. -/
def meetPairs : List Node → Except Fault (List Node)
  | [] => .ok []
  | item :: r => do
    let (k, v) ← pairOf item
    let a ← meet names k
    let b ← meet names v
    return a ++ b ++ (← meetPairs r)

/-- The faults of a collection; the collections in it are left. -/
def meetCollection (n : Node) : Except Fault (List Node) := do
  match n.tag with
  | .seq => meetAll names (← itemsOf n)
  | .map | .set => meetEntries names (← entriesOf n)
  | _ => meetPairs names (← pairItemsOf n)

/-- The faults of collections and of those in them, level by level. -/
def checkLevels : Nat → List Node → Except Fault Unit
  | 0, _ => .ok ()
  | levels + 1, ns => do
    let next ← ns.mapM (meetCollection names)
    if next.flatten.isEmpty then return else checkLevels levels next.flatten

/-! ## Values -/

/-- The entries of a mapping value; of equal keys the last value counts, at the first place. -/
def collect (entries : List (Value × Value)) : List (Value × Value) :=
  entries.foldl (fun es e => Value.insertEntry e.1 e.2 es) []

/-- The value of a node; `depth` bounds how deep collections are nested. -/
def Node.toValue : Nat → Node → Except Fault Value
  | 0, n => n.fail .nestedTooDeep
  | depth + 1, n =>
    let entryValue (e : Node × Node) : Except Fault (Value × Value) := do
      let k ← Node.toValue depth e.1
      let v ← Node.toValue depth e.2
      return (k, v)
    match n.tag with
    | .seq => do return .list (← (← itemsOf n).mapM (Node.toValue depth))
    | .map => do return .map (collect (← (← entriesOf n).mapM entryValue))
    | .set => do return .set ((collect (← (← entriesOf n).mapM entryValue)).map (·.1))
    | .omap | .pairs => do
      let pairs ← (← pairItemsOf n).mapM pairOf
      return .list ((← pairs.mapM entryValue).map fun e => .pair e.1 e.2)
    | _ => scalarValue names n

end

/-! ## Texts -/

/-- Whether a character may stand in a text. -/
def isReadable (c : Char) : Bool :=
  let n := c.toNat
  n == 0x09 || n == 0x0A || n == 0x0D || (0x20 ≤ n && n ≤ 0x7E) || n == 0x85 ||
    (0xA0 ≤ n && n ≤ 0xD7FF) || (0xE000 ≤ n && n ≤ 0xFFFD) || 0x10000 ≤ n

/-- The value that a document stands for; `depth` bounds how deep its collections are nested. -/
def Tree.toValue (depth : Nat) (t : Tree) : Except Fault Value := do
  let first ← meet t.names t.root
  -- The faults of all levels come before any value is made.
  checkLevels t.names depth first
  Node.toValue t.names depth t.root

/-- The value that a YAML text stands for; a text without a document stands for nothing. -/
def load (s : List Char) : Except Fault Value :=
  match s.zipIdx.find? fun p => !isReadable p.1 with
  | some (c, place) => .error (.unreadable c place)
  | none => do
    let (tokens, fault) := tokenize s
    match ← Tree.ofTokens? tokens fault with
    | none => return .null
    | some t => t.toValue (4 * s.length + 8)

end Storyline.Yaml
