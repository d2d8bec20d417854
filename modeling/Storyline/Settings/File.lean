import Storyline.Mapping
import Storyline.Text.Lines

/-!
# Environment files

Files that give names in the environment their values, one to a line: `NAME=value`, also after the
word `export` and with a comment at the end.  A value may be in quotes, and may name other values as
`${NAME}` or `${NAME:-default}`.  Lines that cannot be read are left out.

## Main definitions

* `Binding`, `bindings`: the names and values of a file
* `fillReferences`: a value with the values that it names
* `extend`: an environment with what a file adds to it
-/

namespace Storyline.Settings

open Text

/-- A name, and its value if the file gives it one. -/
structure Binding where
  name : String
  value : Option String
  deriving Repr, DecidableEq

/-! ## Pieces of a line -/

/-- Whether a character ends a line. -/
def endsLine (c : Char) : Bool :=
  c == '\n' || c == '\r'

/-- Whether a character is blank and ends no line. -/
def isInnerBlank (c : Char) : Bool :=
  isBlank c && !endsLine c

/-- A text without the blanks in front, up to the end of the line. -/
def skipInner (s : List Char) : List Char :=
  s.dropWhile isInnerBlank

/-- The text after the word `export` and blanks, if it stands in front. -/
def skipExport (s : List Char) : List Char :=
  let word := "export".toList
  let rest := s.drop word.length
  if word.isPrefixOf s && rest.head?.any isInnerBlank then skipInner rest else s

/-- A name and the text after it: between single quotes, or up to a blank, an equals sign or a
number sign. -/
def name? (s : List Char) : Option (List Char × List Char) :=
  match s with
  | '\'' :: r =>
    match r.takeWhile (· ≠ '\''), r.dropWhile (· ≠ '\'') with
    | [], _ => none
    | name, _ :: rest => some (name, rest)
    | _, [] => none
  | s =>
    let plain (c : Char) : Bool := c != '=' && c != '#' && !isBlank c
    match s.takeWhile plain with
    | [] => none
    | name => some (name, s.dropWhile plain)

/-- The text up to the quote that closes it, and the text after that quote.  A quote after a
backslash closes only if no other does. -/
def closed? (quote : Char) : List Char → Option (List Char × List Char)
  | [] => none
  | '\\' :: c :: r =>
    if c = quote then
      match closed? quote r with
      | some p => some ('\\' :: c :: p.1, p.2)
      -- No other quote closes, so this one does, and the backslash is text.
      | none => some (['\\'], r)
    else (closed? quote (c :: r)).map fun p => ('\\' :: p.1, p.2)
  | c :: r => if c = quote then some ([], r) else (closed? quote r).map fun p => (c :: p.1, p.2)

/-- The letters that stand for characters after a backslash, between double quotes. -/
def doubleEscapes : List (Char × Char) :=
  [('\\', '\\'), ('\'', '\''), ('"', '"'), ('a', '\x07'), ('b', '\x08'), ('f', '\x0c'),
    ('n', '\n'), ('r', '\r'), ('t', '\t'), ('v', '\x0b')]

/-- The letters that stand for characters after a backslash, between single quotes. -/
def singleEscapes : List (Char × Char) :=
  [('\\', '\\'), ('\'', '\'')]

/-- A text with the characters that stand after backslashes. -/
def unescape (escapes : List (Char × Char)) : List Char → List Char
  | [] => []
  | '\\' :: c :: r =>
    match escapes.lookup c with
    | some d => d :: unescape escapes r
    | none => '\\' :: unescape escapes (c :: r)
  | c :: r => c :: unescape escapes r

/-- A text up to blanks before a number sign. -/
def beforeComment (s : List Char) : List Char :=
  match s with
  | [] => []
  | c :: r =>
    if isBlank c && ((c :: r).dropWhile isBlank).head? == some '#' then []
    else c :: beforeComment r

/-- A value and the text after it. -/
def value? (s : List Char) : Option (List Char × List Char) :=
  match s with
  | '\'' :: r => (closed? '\'' r).map fun p => (unescape singleEscapes p.1, p.2)
  | '"' :: r => (closed? '"' r).map fun p => (unescape doubleEscapes p.1, p.2)
  | s =>
    some (trimRight (beforeComment (s.takeWhile fun c => !endsLine c)),
      s.dropWhile fun c => !endsLine c)

/-- A text without the comment in front. -/
def skipComment (s : List Char) : List Char :=
  match skipInner s with
  | '#' :: r => r.dropWhile fun c => !endsLine c
  | _ => s

/-- The text after the end of a line, if nothing but blanks comes before it. -/
def afterEnd? (s : List Char) : Option (List Char) :=
  match skipInner s with
  | [] => some []
  | '\r' :: '\n' :: r => some r
  | c :: r => if endsLine c then some r else none

/-- The text after the end of the line, whatever comes before it. -/
def afterLine (s : List Char) : List Char :=
  match s.dropWhile fun c => !endsLine c with
  | [] => []
  | _ :: r => r

/-! ## Lines -/

/-- The binding of a line, if it has one, and the text after the line. -/
def binding (s : List Char) : Option Binding × List Char :=
  let s := skipExport s
  if s.head? == some '#' then (none, (afterEnd? (skipComment s)).getD (afterLine s))
  else match name? s with
    | none => (none, afterLine s)
    | some (name, r) =>
      match skipInner r with
      | '=' :: t =>
        match value? (skipInner t) with
        | none => (none, afterLine (skipInner t))
        | some (value, u) =>
          match afterEnd? (skipComment u) with
          | some rest => (some ⟨String.ofList name, some (String.ofList value)⟩, rest)
          | none => (none, afterLine (skipComment u))
      | t =>
        match afterEnd? (skipComment t) with
        | some rest => (some ⟨String.ofList name, none⟩, rest)
        | none => (none, afterLine (skipComment t))

/-- The bindings of a text of at most `fuel` lines. -/
def bindingsUpTo : Nat → List Char → List Binding
  | 0, _ => []
  | fuel + 1, s =>
    match trimLeft s with
    | [] => []
    | s =>
      let p := binding s
      p.1.toList ++ bindingsUpTo fuel p.2

/-- The bindings of a file. -/
def bindings (text : String) : List Binding :=
  bindingsUpTo (text.length + 1) (universalBreaks text.toList)

/-! ## References -/

/-- The name and the default of a reference, and the text after it. -/
def reference? (s : List Char) : Option (String × Option String × List Char) :=
  match s with
  | '$' :: '{' :: r =>
    let name := r.takeWhile fun c => c != '}' && c != ':'
    match r.drop name.length with
    | '}' :: rest => some (String.ofList name, none, rest)
    | ':' :: '-' :: t =>
      match t.dropWhile (· ≠ '}') with
      | [] => none
      | _ :: rest => some (String.ofList name, some (String.ofList (t.takeWhile (· ≠ '}'))), rest)
    | _ => none
  | _ => none

/-- The names in the references of a text. -/
def referenceNamesIn : List Char → List String
  | [] => []
  | c :: r => ((reference? (c :: r)).map (·.1)).toList ++ referenceNamesIn r

/-- The names in the references of a file. -/
def referenceNames (text : String) : List String :=
  referenceNamesIn text.toList

/-- A text of at most `fuel` characters with the values that it names. -/
def fillUpTo (value? : String → Option (Option String)) : Nat → List Char → List Char
  | 0, s => s
  | _, [] => []
  | fuel + 1, c :: r =>
    match reference? (c :: r) with
    | some (name, default, rest) =>
      (((value? name).getD default).getD "").toList ++ fillUpTo value? fuel rest
    | none => c :: fillUpTo value? fuel r

/-- A text with the values that it names.  A name that is not known stands for its default; one that
is known to have no value stands for nothing. -/
def fillReferences (value? : String → Option (Option String)) (text : String) : String :=
  String.ofList (fillUpTo value? text.length text.toList)

/-- The values of bindings, given those of the bindings before.  What the environment has wins. -/
def resolve (env : Mapping String) (given : Mapping (Option String)) :
    List Binding → Mapping (Option String)
  | [] => given
  | b :: bs =>
    -- The environment comes before the file, also inside values.
    let known (name : String) := ((env.get? name).map some).or (given.get? name)
    resolve env (given.insert b.name (b.value.map (fillReferences known))) bs

/-- The environment with one more value, unless it has one. -/
def addMissing (env : Mapping String) (p : String × Option String) : Mapping String :=
  match p.2 with
  | some value => if env.contains p.1 then env else env.insert p.1 value
  | none => env

/-- An environment with what a file adds to it. -/
def extend (env : Mapping String) (text : String) : Mapping String :=
  (resolve env Mapping.empty (bindings text)).toList.foldl addMissing env

end Storyline.Settings
