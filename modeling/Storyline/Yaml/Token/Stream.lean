import Storyline.Yaml.Token.Scalar
import Storyline.Yaml.Token.Property

/-!
# The tokens of a text

Cutting a text into tokens.  A value may be a key although its colon comes later, so tokens are held
back as long as a key may begin before them; when the colon is found, the key and the start of its
mapping are put in their place.

A fault ends the tokens.  Those that were held back at that moment are not given out, because
whoever reads tokens one by one meets the fault before them.

## Main definitions

* `KeyStart`: a place where a key may have begun
* `Scanner`: the tokens so far and what the next ones depend on
* `Scanner.fetch`: the next token
* `tokenize`: the tokens of a text and the fault that ends them
-/

namespace Storyline.Yaml

/-- A place where a key may have begun: the number of its token, where it is, and whether the text
is wrong if no key begins there. -/
structure KeyStart where
  token : Nat
  required : Bool
  index : Nat
  line : Nat
  column : Nat
  deriving Repr

/-- The tokens so far and what the next ones depend on. -/
structure Scanner where
  cursor : Cursor
  /-- The number of open brackets. -/
  flow : Nat := 0
  /-- The indentation of the innermost open block, and those of the blocks around it. -/
  indent : Int := -1
  indents : List Int := []
  /-- Whether a key may begin here. -/
  keyAllowed : Bool := true
  /-- Where a key may have begun, by the number of open brackets. -/
  keyStarts : List (Nat × KeyStart) := []
  tokens : Array Token := #[]
  done : Bool := false

namespace Scanner

/-- The scanner with a token added. -/
def push (s : Scanner) (word : Word) (line : Nat) : Scanner :=
  { s with tokens := s.tokens.push ⟨word, line⟩ }

/-- The scanner with a token added at the cursor. -/
def pushHere (s : Scanner) (word : Word) : Scanner :=
  s.push word s.cursor.line

/-- The scanner with a token of `n` characters read. -/
def take (s : Scanner) (word : Word) (n : Nat) : Scanner :=
  { s.pushHere word with cursor := s.cursor.steps n }

/-- The scanner at another place. -/
def moveTo (s : Scanner) (c : Cursor) : Scanner :=
  { s with cursor := c }

/-! ## Where a key may have begun -/

/-- The most characters of a key in front of its colon. -/
def keyLimit : Nat :=
  1024

/-- Whether no colon can follow any more: a key stays on its line and within a length. -/
def isStale (s : Scanner) (k : KeyStart) : Bool :=
  k.line != s.cursor.line || keyLimit < s.cursor.index - k.index

/-- The scanner without the key starts after which no colon can follow. -/
def dropStale (s : Scanner) : Except Fault Scanner :=
  -- A key that had to begin there has no colon.
  if s.keyStarts.any fun p => s.isStale p.2 && p.2.required then s.cursor.fail .missingColon
  else .ok { s with keyStarts := s.keyStarts.filter fun p => !s.isStale p.2 }

/-- The scanner without the key start at the present number of brackets. -/
def dropKeyStart (s : Scanner) : Except Fault Scanner :=
  if s.keyStarts.any fun p => p.1 == s.flow && p.2.required then s.cursor.fail .missingColon
  else .ok { s with keyStarts := s.keyStarts.filter fun p => p.1 != s.flow }

/-- The scanner with a key start here, if a key may begin here. -/
def markKeyStart (s : Scanner) : Except Fault Scanner :=
  if s.keyAllowed then do
    -- At the indentation of the open block nothing but a key may stand.
    let required := s.flow == 0 && s.indent == (s.cursor.column : Int)
    let s ← s.dropKeyStart
    let k : KeyStart :=
      { token := s.tokens.size, required, index := s.cursor.index, line := s.cursor.line,
        column := s.cursor.column }
    return { s with keyStarts := (s.flow, k) :: s.keyStarts }
  else .ok s

/-- The number of tokens that are not held back by a key start. -/
def released (s : Scanner) : Nat :=
  s.keyStarts.foldl (fun n p => min n p.2.token) s.tokens.size

/-! ## Indentation -/

/-- Closes the blocks that are indented more than `column`. -/
def closeBlocks (line : Nat) (column : Int) :
    List Int → Int → Array Token → List Int × Int × Array Token
  | [], indent, tokens => ([], indent, tokens)
  | outer :: rest, indent, tokens =>
    if column < indent then closeBlocks line column rest outer (tokens.push ⟨.blockEnd, line⟩)
    else (outer :: rest, indent, tokens)

/-- The scanner with the blocks closed that are indented more than `column`; inside brackets
indentation does not count. -/
def unwind (s : Scanner) (column : Int) : Scanner :=
  if s.flow != 0 then s
  else
    let (indents, indent, tokens) := closeBlocks s.cursor.line column s.indents s.indent s.tokens
    { s with indents, indent, tokens }

/-- The scanner with a block opened at a column, if it is indented more than the open ones; the
start of the block is put at a place among the tokens. -/
def openBlock (s : Scanner) (column place line : Nat) (word : Word) : Scanner :=
  if s.indent < column then
    { s with
      indents := s.indent :: s.indents
      indent := column
      tokens := s.tokens.insertIdxIfInBounds place ⟨word, line⟩ }
  else s

/-- The scanner with a block opened at the cursor. -/
def openHere (s : Scanner) (word : Word) : Scanner :=
  s.openBlock s.cursor.column s.tokens.size s.cursor.line word

/-! ## Tokens -/

/-- The place of the next token: spaces, comments and line ends are passed over.  Outside brackets a
key may begin on a new line. -/
def toNextToken (flow : Nat) : Nat → Bool → Cursor → Bool × Cursor
  | 0, allowed, c => (allowed, c)
  | fuel + 1, allowed, c =>
    let c := c.skip (· == ' ')
    let c := if c.peek == some '#' then c.skip (fun ch => !isBreak ch) else c
    match c.lineBreak? with
    | some (_, c) => toNextToken flow fuel (allowed || flow == 0) c
    | none => (allowed, c)

/-- The scanner at the next token.  A byte order mark at the very start is passed over. -/
def skipBlanks (s : Scanner) : Scanner :=
  let c := s.cursor
  let c := if c.index == 0 && c.peek == some '\uFEFF' then c.step else c
  let (allowed, c) := toNextToken s.flow (c.rest.length + 1) s.keyAllowed c
  { s with cursor := c, keyAllowed := allowed }

/-- The end of the text. -/
def fetchEnd (s : Scanner) : Except Fault Scanner := do
  let s ← (s.unwind (-1)).dropKeyStart
  return { s.pushHere .streamEnd with keyAllowed := false, keyStarts := [], done := true }

/-- A directive. -/
def fetchDirective (s : Scanner) : Except Fault Scanner := do
  let s ← (s.unwind (-1)).dropKeyStart
  let (d, c) ← directive s.cursor
  return { (s.pushHere (.directive d)).moveTo c with keyAllowed := false }

/-- The mark of the start or the end of a document. -/
def fetchDocumentMark (s : Scanner) (word : Word) : Except Fault Scanner := do
  let s ← (s.unwind (-1)).dropKeyStart
  return { s.take word 3 with keyAllowed := false }

/-- An opening bracket. -/
def fetchOpening (s : Scanner) (word : Word) : Except Fault Scanner := do
  let s ← s.markKeyStart
  return { s.take word 1 with flow := s.flow + 1, keyAllowed := true }

/-- A closing bracket. -/
def fetchClosing (s : Scanner) (word : Word) : Except Fault Scanner := do
  let s ← s.dropKeyStart
  return { s.take word 1 with flow := s.flow - 1, keyAllowed := false }

/-- A comma between brackets. -/
def fetchFlowEntry (s : Scanner) : Except Fault Scanner := do
  let s ← s.dropKeyStart
  return { s.take .flowEntry 1 with keyAllowed := true }

/-- The hyphen of an item. -/
def fetchBlockEntry (s : Scanner) : Except Fault Scanner := do
  if s.flow == 0 && !s.keyAllowed then s.cursor.fail .entryNotAllowed
  else
    let s := if s.flow == 0 then s.openHere .blockSequenceStart else s
    let s ← s.dropKeyStart
    return { s.take .blockEntry 1 with keyAllowed := true }

/-- The question mark of a key. -/
def fetchKey (s : Scanner) : Except Fault Scanner := do
  if s.flow == 0 && !s.keyAllowed then s.cursor.fail .keyNotAllowed
  else
    let s := if s.flow == 0 then s.openHere .blockMappingStart else s
    let s ← s.dropKeyStart
    return { s.take .key 1 with keyAllowed := s.flow == 0 }

/-- The colon of a value.  If a key may have begun, it did. -/
def fetchValue (s : Scanner) : Except Fault Scanner := do
  match s.keyStarts.lookup s.flow with
  | some k =>
    let s :=
      { s with
        keyStarts := s.keyStarts.filter fun p => p.1 != s.flow
        tokens := s.tokens.insertIdxIfInBounds k.token ⟨.key, k.line⟩ }
    -- The first key of a block opens it, at the column of the key.
    let s := if s.flow == 0 then s.openBlock k.column k.token k.line .blockMappingStart else s
    return { s.take .value 1 with keyAllowed := false }
  | none =>
    -- No key stands before the colon, so the key is nothing.
    if s.flow == 0 && !s.keyAllowed then s.cursor.fail .valueNotAllowed
    else
      let s := if s.flow == 0 then s.openHere .blockMappingStart else s
      let s ← s.dropKeyStart
      return { s.take .value 1 with keyAllowed := s.flow == 0 }

/-- A token that may be a key, read by `read`. -/
def fetchContent (s : Scanner) (read : Cursor → Except Fault (Word × Cursor)) :
    Except Fault Scanner := do
  let s ← s.markKeyStart
  let (word, c) ← read s.cursor
  return { (s.pushHere word).moveTo c with keyAllowed := false }

/-- A scalar between quotes. -/
def fetchQuoted (s : Scanner) (quote : Char) : Except Fault Scanner :=
  s.fetchContent fun c => do
    let (text, c) ← quotedScalar quote c
    return (.scalar text false, c)

/-- A scalar as a block. -/
def fetchBlock (s : Scanner) (fold : Bool) : Except Fault Scanner := do
  let s ← s.dropKeyStart
  let (text, c) ← blockScalar fold s.indent s.cursor
  return { (s.pushHere (.scalar text false)).moveTo c with keyAllowed := true }

/-- A plain scalar; if a line ends after it, a key may begin there. -/
def fetchPlain (s : Scanner) : Except Fault Scanner := do
  let s ← s.markKeyStart
  let p := plainScalar (s.flow != 0) (s.indent + 1) s.cursor
  return { (s.pushHere (.scalar p.text true)).moveTo p.cursor with keyAllowed := p.lineEnded }

/-- Whether a plain scalar may begin with a character, given the one after it. -/
def startsPlain (flow : Bool) (c : Char) (next : Option Char) : Bool :=
  !(isSeparator c || "-?:,[]\x7b\x7d#&*!|>'\"%@`".toList.contains c) ||
    (next.any (fun d => !isSeparator d) && (c == '-' || (!flow && (c == '?' || c == ':'))))

/-- The next token at the cursor, which stands at its first character. -/
def fetchAt (s : Scanner) : Except Fault Scanner :=
  let c := s.cursor
  let inFlow := s.flow != 0
  let apart := c.endsAtOr isSeparator 1
  match c.peek with
  | none => s.fetchEnd
  | some ch =>
    -- Directives and the marks of documents count only at the start of a line.
    if ch == '%' && c.column == 0 then s.fetchDirective
    else if c.column == 0 && atDocumentMark c then
      s.fetchDocumentMark (if ch == '-' then .documentStart else .documentEnd)
    else if ch == '[' then s.fetchOpening .flowSequenceStart
    else if ch == '{' then s.fetchOpening .flowMappingStart
    else if ch == ']' then s.fetchClosing .flowSequenceEnd
    else if ch == '}' then s.fetchClosing .flowMappingEnd
    else if ch == ',' then s.fetchFlowEntry
    else if ch == '-' && apart then s.fetchBlockEntry
    else if ch == '?' && (inFlow || apart) then s.fetchKey
    else if ch == ':' && (inFlow || apart) then s.fetchValue
    else if ch == '*' then s.fetchContent fun c => do
      let (name, d) ← anchorName c
      return (.alias name, d)
    else if ch == '&' then s.fetchContent fun c => do
      let (name, d) ← anchorName c
      return (.anchor name, d)
    else if ch == '!' then s.fetchContent tagWord
    else if ch == '|' && !inFlow then s.fetchBlock false
    else if ch == '>' && !inFlow then s.fetchBlock true
    else if ch == '\'' || ch == '"' then s.fetchQuoted ch
    else if startsPlain inFlow ch (c.peekAt 1) then s.fetchPlain
    else c.fail (.badStart ch)

/-- The next token: what is between tokens is passed over, and blocks that end before it are
closed. -/
def fetch (s : Scanner) : Except Fault Scanner := do
  let s ← s.skipBlanks.dropStale
  (s.unwind s.cursor.column).fetchAt

/-- All tokens from here on; `given` of them were given out before a fault could end them. -/
def run : Nat → Nat → Scanner → List Token × Option Fault
  | 0, _, s => (s.tokens.toList, none)
  | fuel + 1, given, s =>
    if s.done then (s.tokens.toList, none)
    else match s.dropStale with
      | .error f => (s.tokens.toList.take given, some f)
      | .ok s =>
        match s.fetch with
        -- Tokens held back when the fault arises are not given out.
        | .error f => (s.tokens.toList.take s.released, some f)
        | .ok next => run fuel s.released next

end Scanner

/-- The tokens of a text and the fault that ends them. -/
def tokenize (s : List Char) : List Token × Option Fault :=
  Scanner.run (s.length + 2) 0 { cursor := .ofText s }

end Storyline.Yaml
