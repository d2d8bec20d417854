import Storyline.Lint.Issue
import Storyline.Script.Fault
import Storyline.Script.Line
import Storyline.Yaml.Document

/-!
# Checking a script

Checks of a script line by line, which also work on a script that is not a story: whether its YAML
blocks can be read, whether values in them need quotes, and whether two scenes have one name.

## Main definitions

* `YamlBlock`, `yamlBlocks`: the front matter and the fences around data
* `checkBlock`: the issues of a block
* `checkScript`: the issues of a script
-/

namespace Storyline.Lint

open Text Script

/-- A YAML block of a script: what it is, its text, and the line on which it opens. -/
structure YamlBlock where
  kind : String
  body : String
  line : Nat
  deriving Repr, DecidableEq

/-- The lines of a script. -/
def scriptLines (text : String) : List (List Char) :=
  lines (normalizeBreaks text.toList)

/-! ## YAML blocks -/

/-- Whether a line opens front matter, byte order marks in front aside. -/
def opensMetadata (line : List Char) : Bool :=
  (trim line).dropWhile (· = '\uFEFF') == rule

/-- The fence around data that a line opens. -/
def mediaFence? (line : List Char) : Option String :=
  (fenceInfo? line).filter mediaFences.contains

/-- The lines before the first that passes a test, and those after it. -/
def cutAt (ends : List Char → Bool) : List (List Char) → List (List Char) × List (List Char)
  | [] => ([], [])
  | l :: ls =>
    if ends l then ([], ls)
    else
      let p := cutAt ends ls
      (l :: p.1, p.2)

theorem length_cutAt_le (ends : List Char → Bool) (ls : List (List Char)) :
    (cutAt ends ls).2.length ≤ ls.length := by
  induction ls with
  | nil => simp [cutAt]
  | cons l ls ih =>
    unfold cutAt
    split
    · simp
    · simp only [List.length_cons]
      omega

/-- A block of lines. -/
def blockOf (kind : String) (line : Nat) (ls : List (List Char)) : YamlBlock :=
  { kind := kind, body := String.ofList (unlines ls), line := line }

/-- The fences around data in lines of which the first is line `n`.  A fence that is not closed goes
on to the end. -/
def fenceBlocks (n : Nat) (ls : List (List Char)) : List YamlBlock :=
  match ls with
  | [] => []
  | l :: ls =>
    match mediaFence? l with
    | none => fenceBlocks (n + 1) ls
    | some kind =>
      let inside := (cutAt closesFence ls).1
      blockOf kind n inside :: fenceBlocks (n + inside.length + 2) (cutAt closesFence ls).2
termination_by ls.length
decreasing_by
  · simp
  · have := length_cutAt_le closesFence ls
    simp only [List.length_cons]
    omega

/-- The YAML blocks of lines. -/
def blocksOfLines : List (List Char) → List YamlBlock
  | [] => []
  | l :: ls =>
    if opensMetadata l then
      let p := cutAt isRule ls
      blockOf "frontmatter" 1 p.1 :: fenceBlocks (p.1.length + 3) p.2
    else fenceBlocks 1 (l :: ls)

/-- The YAML blocks of a script. -/
def yamlBlocks (text : String) : List YamlBlock :=
  blocksOfLines (scriptLines text)

/-! ## Issues of a block -/

/-- The value of a line that holds a key and a value.  After a key with blanks alone the last blank
counts as the value. -/
def lineValue? (line : List Char) : Option (List Char) :=
  let r := line.dropWhile isAsciiBlank
  if (r.takeWhile isWord).isEmpty then none
  else match r.dropWhile isWord with
    | ':' :: t =>
      match t.dropWhile isAsciiBlank with
      | [] => t.getLast?.map fun c => [c]
      | v => some v
    | _ => none

/-- Whether a text holds a mark. -/
def holds (mark : List Char) : List Char → Bool
  | [] => mark.isEmpty
  | c :: r => mark.isPrefixOf (c :: r) || holds mark r

/-- Whether there is a greater-than sign right after a character that makes no operator with it. -/
def hasBareGreaterThan : List Char → Bool
  | a :: b :: r => (b == '>' && !(['=', '!', '<'].contains a)) || hasBareGreaterThan (b :: r)
  | _ => false

/-- What may be wrong with a value. -/
def checkValue (value : List Char) : List Finding :=
  let quotes : List Finding := if value.count '"' % 2 = 1 then [.unbalancedQuotes] else []
  -- A value in quotes, or one that goes on below, needs no quotes.
  if value.head?.any ['"', '\'', '|', '>'].contains then quotes
  else
    let marks : List Finding :=
      if holds [':', ' '] value || holds [' ', '#'] value then [.unquotedMarks] else []
    let greater : List Finding := if hasBareGreaterThan value then [.bareGreaterThan] else []
    quotes ++ marks ++ greater

/-- The issues of a line in a block. -/
def checkLine (block : YamlBlock) (p : List Char × Nat) : List Issue :=
  (((lineValue? p.1).map checkValue).getD []).map fun f =>
    { finding := f, line := some p.2, block := some block.kind }

/-- The issue of a block that cannot be read. -/
def loadIssue (block : YamlBlock) : Except Yaml.Defect (Option Issue) :=
  let issue (f : Finding) (line : Nat) : Issue :=
    { finding := f, line := some line, block := some block.kind }
  match Yaml.load (dedent block.body.toList) with
  | .ok _ => .ok none
  | .error (.problem p line) => .ok (some (issue (.badYaml p) (block.line + line + 1)))
  | .error (.unreadable c place) => .ok (some (issue (.badCharacter c place) block.line))
  | .error (.defect d) => .error d

/-- The issues of a block. -/
def checkBlock (block : YamlBlock) : Except Yaml.Defect (List Issue) := do
  let unreadable ← loadIssue block
  -- The body begins on the line after the one that opens the block.
  let ls := (lines block.body.toList).zipIdx (block.line + 1)
  return unreadable.toList ++ ls.flatMap (checkLine block)

/-! ## Scenes with one name -/

/-- The headers of scenes outside fences, with their lines. -/
def headers (inFence : Bool) : List (List Char × Nat) → List (String × Nat)
  | [] => []
  | (l, n) :: ls =>
    if (fenceInfo? l).isSome then headers (!inFence) ls
    else match if inFence then none else header? l with
      | some id => (id, n) :: headers inFence ls
      | none => headers inFence ls

/-- The issues of headers, given the lines of those before. -/
def repeatedHeaders (seen : List (String × Nat)) : List (String × Nat) → List Issue
  | [] => []
  | (id, n) :: hs =>
    match seen.lookup id with
    | some first =>
      { finding := .duplicateScene id first, line := some n, scene := some id } ::
        repeatedHeaders seen hs
    | none => repeatedHeaders ((id, n) :: seen) hs

/-- The issues of a script. -/
def checkScript (text : String) : Except Yaml.Defect (List Issue) := do
  let blocks ← (yamlBlocks text).mapM checkBlock
  return blocks.flatten ++ repeatedHeaders [] (headers false ((scriptLines text).zipIdx 1))

end Storyline.Lint
