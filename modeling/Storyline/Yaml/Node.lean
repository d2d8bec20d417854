import Storyline.Yaml.Tag
import Storyline.Yaml.Token.Stream

/-!
# Nodes of a YAML text

The tree of scalars, sequences and mappings that the tokens of a text spell, with tags decided and
aliases replaced by what they stand for.

A collection may have an alias of itself in it.  The tree does not go on there: it has a mark with
the name of the collection, which can be looked up.  The data made of such a tree are empty at the
mark, since data have no cycles.

## Main definitions

* `Node`: a tagged value and its line
* `Node.nested`: reading inside a collection, for which there must be room
* `Tree`: the outermost node of a document and what its names stand for
* `Tree.ofTokens?`: the tree that tokens spell, none for a text without a document
-/

namespace Storyline.Yaml

/-- A tagged value and the line on which it starts. -/
inductive Node where
  | scalar (tag : Tag) (text : List Char) (line : Nat)
  | sequence (tag : Tag) (items : List Node) (line : Nat)
  | mapping (tag : Tag) (entries : List (Node × Node)) (line : Nat)
  /-- A collection inside itself, under its name. -/
  | within (name : String) (isMapping : Bool) (tag : Tag) (line : Nat)
  deriving Repr

namespace Node

instance : Inhabited Node := ⟨.scalar .null [] 0⟩

/-- The tag of a node. -/
def tag : Node → Tag
  | .scalar t _ _ => t
  | .sequence t _ _ => t
  | .mapping t _ _ => t
  | .within _ _ t _ => t

/-- The line on which a node starts. -/
def line : Node → Nat
  | .scalar _ _ l => l
  | .sequence _ _ l => l
  | .mapping _ _ l => l
  | .within _ _ _ l => l

/-- What messages call the kind of a node. -/
def kind : Node → String
  | .scalar .. => "scalar"
  | .sequence .. => "sequence"
  | .mapping .. => "mapping"
  | .within _ isMapping .. => if isMapping then "mapping" else "sequence"

/-! ## Reading tokens -/

/-- The tokens still to be read, the fault that ends them, what names stand for, and how many
collections are open. -/
structure Reader where
  tokens : List Token
  fault : Option Fault
  handles : List (String × String) := []
  anchors : List (String × Node) := []
  depth : Nat := 0

/-- A step of reading. -/
abbrev Read := StateT Reader (Except Fault)

/-- The next token.  Where the tokens end, the fault that ended them arises. -/
def peek : Read Token := do
  let r ← get
  match r.tokens with
  | t :: _ => return t
  | [] => throw (r.fault.getD (.problem .nestedTooDeep 0))

/-- Passes the next token. -/
def advance : Read Unit :=
  modify fun r => { r with tokens := r.tokens.drop 1 }

/-- Whether the next token is one of some. -/
def nextIn (words : List Word) : Read Bool := do
  return words.contains (← peek).word

/-- A problem with the next token. -/
def unexpected {α : Type} (problem : String → Problem) : Read α := do
  let t ← peek
  throw (.problem (problem t.word.name) t.line)

/-- Nothing, where a value is left out. -/
def missing (line : Nat) : Node :=
  .scalar .null [] line

/-- Gives a name to a node. -/
def remember (name : Option String) (n : Node) : Read Unit :=
  match name with
  | some a => modify fun r => { r with anchors := (a, n) :: r.anchors.filter (·.1 != a) }
  | none => pure ()

/-- Gives a name to a collection that is about to be read. -/
def openNode (name : Option String) (isMapping : Bool) (tag : Tag) (line : Nat) : Read Unit :=
  match name with
  | some a => remember name (.within a isMapping tag line)
  | none => pure ()

/-- Reads what is in a collection.  Two calls are made for each collection that is open. -/
def nested {α : Type} (read : Read α) : Read α := do
  if callRoom < 2 * ((← get).depth + 1) then throw (.defect .recursion)
  modify fun r => { r with depth := r.depth + 1 }
  let a ← read
  modify fun r => { r with depth := r.depth - 1 }
  return a

/-- Anchor and tag in front of a value, with the line of the first and that of the tag. -/
structure Properties where
  anchor : Option String := none
  tag : Option (Option String × String × Nat) := none
  line : Option Nat := none

/-- Reads up to `n` properties, of each kind at most one. -/
def properties : Nat → Properties → Read Properties
  | 0, p => return p
  | n + 1, p => do
    let t ← peek
    match t.word, p.anchor, p.tag with
    | .anchor a, none, _ =>
      advance
      properties n { p with anchor := some a, line := some (p.line.getD t.line) }
    | .tag handle suffix, _, none =>
      advance
      properties n
        { p with tag := some (handle, suffix, t.line), line := some (p.line.getD t.line) }
    | _, _, _ => return p

/-- The full name of a tag, whose handle the document must explain. -/
def fullTag (p : Properties) : Read (Option String) := do
  match p.tag with
  | none => return none
  | some (none, suffix, _) => return some suffix
  | some (some handle, suffix, line) =>
    match (← get).handles.lookup handle with
    | some start => return some (start ++ suffix)
    | none => throw (.problem (.undefinedHandle handle) line)

/-- The tag of a collection: its own, or that of its kind. -/
def collectionTag (name : Option String) (own : Tag) : Tag :=
  match name with
  | none => own
  | some n => if n = "!" then own else .ofName n

/-- The tag of a scalar: its own; for a plain one that its form tells; else that of strings. -/
def scalarTag (name : Option String) (text : List Char) (plain : Bool) : Tag :=
  match name with
  | none => if plain then .ofPlain text else .str
  | some n => if n = "!" then .ofPlain text else .ofName n

/-- Refuses a name that is given a second time. -/
def checkAnchor (p : Properties) (line : Nat) : Read Unit := do
  match p.anchor with
  | some a => if ((← get).anchors.lookup a).isSome then throw (.problem .duplicateAnchor line)
  | none => return

mutual

/-- A value.  In block context it may be a block collection, and as the value of a key also a
sequence that is not indented. -/
def value (block indentless : Bool) : Nat → Read Node
  | 0 => throw (.problem .nestedTooDeep 0)
  | fuel + 1 => do
    let t ← peek
    match t.word with
    | .alias a =>
      advance
      match (← get).anchors.lookup a with
      | some n => return n
      | none => throw (.problem (.undefinedAlias a) t.line)
    | _ =>
      let p ← properties 2 {}
      let name ← fullTag p
      let t ← peek
      let line := p.line.getD t.line
      let sequenceTag := collectionTag name .seq
      let mappingTag := collectionTag name .map
      match t.word with
      | .scalar text plain =>
        advance
        checkAnchor p line
        named p (.scalar (scalarTag name text plain) text line)
      | .flowSequenceStart =>
        checkAnchor p line
        advance
        openNode p.anchor false sequenceTag line
        let items ← nested (flowItems true fuel)
        named p (.sequence sequenceTag items line)
      | .flowMappingStart =>
        checkAnchor p line
        advance
        openNode p.anchor true mappingTag line
        let entries ← nested (flowEntries true fuel)
        named p (.mapping mappingTag entries line)
      | w =>
        if indentless && w == .blockEntry then
          checkAnchor p line
          openNode p.anchor false sequenceTag line
          let items ← nested (indentlessItems fuel)
          named p (.sequence sequenceTag items line)
        else if block && w == .blockSequenceStart then
          checkAnchor p line
          advance
          openNode p.anchor false sequenceTag line
          let items ← nested (blockItems fuel)
          named p (.sequence sequenceTag items line)
        else if block && w == .blockMappingStart then
          checkAnchor p line
          advance
          openNode p.anchor true mappingTag line
          let entries ← nested (blockEntries fuel)
          named p (.mapping mappingTag entries line)
        else if p.line.isSome then
          checkAnchor p line
          -- Properties alone stand for a scalar without text.
          named p (.scalar (scalarTag name [] (name.all (· == "!"))) [] line)
        else unexpected .contentExpected
where
  /-- Gives its name to a finished node. -/
  named (p : Properties) (n : Node) : Read Node := do
    remember p.anchor n
    return n

/-- A value, or nothing if one of some tokens follows. -/
def valueUnless (ends : List Word) (block indentless : Bool) (line : Nat) : Nat → Read Node
  | 0 => throw (.problem .nestedTooDeep 0)
  | fuel + 1 => do
    if ← nextIn ends then return missing line else value block indentless fuel

/-- The items of a block sequence up to its end. -/
def blockItems : Nat → Read (List Node)
  | 0 => throw (.problem .nestedTooDeep 0)
  | fuel + 1 => do
    let t ← peek
    match t.word with
    | .blockEntry =>
      advance
      let n ← valueUnless [.blockEntry, .blockEnd] true false t.line fuel
      return n :: (← blockItems fuel)
    | .blockEnd =>
      advance
      return []
    | _ => unexpected .blockEndExpected

/-- The items of a sequence that is not indented. -/
def indentlessItems : Nat → Read (List Node)
  | 0 => throw (.problem .nestedTooDeep 0)
  | fuel + 1 => do
    let t ← peek
    match t.word with
    | .blockEntry =>
      advance
      let n ← valueUnless [.blockEntry, .key, .value, .blockEnd] true false t.line fuel
      return n :: (← indentlessItems fuel)
    | _ => return []

/-- The entries of a block mapping up to its end. -/
def blockEntries : Nat → Read (List (Node × Node))
  | 0 => throw (.problem .nestedTooDeep 0)
  | fuel + 1 => do
    let t ← peek
    match t.word with
    | .key =>
      advance
      let k ← valueUnless [.key, .value, .blockEnd] true true t.line fuel
      let v ← blockValue fuel
      return (k, v) :: (← blockEntries fuel)
    | .blockEnd =>
      advance
      return []
    | _ => unexpected .blockEndExpected

/-- The value of a key in a block mapping, nothing if no colon follows. -/
def blockValue : Nat → Read Node
  | 0 => throw (.problem .nestedTooDeep 0)
  | fuel + 1 => do
    let t ← peek
    match t.word with
    | .value =>
      advance
      valueUnless [.key, .value, .blockEnd] true true t.line fuel
    | _ => return missing t.line

/-- The items between square brackets; a key makes a mapping of one entry. -/
def flowItems (first : Bool) : Nat → Read (List Node)
  | 0 => throw (.problem .nestedTooDeep 0)
  | fuel + 1 => do
    if ← nextIn [.flowSequenceEnd] then
      advance
      return []
    unless first do
      if ← nextIn [.flowEntry] then advance else unexpected .sequenceEndExpected
    let t ← peek
    match t.word with
    | .key =>
      advance
      -- A key between square brackets makes a mapping of its own.
      let entry ← nested do
        let k ← valueUnless [.value, .flowEntry, .flowSequenceEnd] false false t.line fuel
        return (k, ← flowValue [.flowEntry, .flowSequenceEnd] fuel)
      return .mapping .map [entry] t.line :: (← flowItems false fuel)
    | .flowSequenceEnd =>
      advance
      return []
    | _ =>
      let n ← value false false fuel
      return n :: (← flowItems false fuel)

/-- The entries between braces. -/
def flowEntries (first : Bool) : Nat → Read (List (Node × Node))
  | 0 => throw (.problem .nestedTooDeep 0)
  | fuel + 1 => do
    if ← nextIn [.flowMappingEnd] then
      advance
      return []
    unless first do
      if ← nextIn [.flowEntry] then advance else unexpected .mappingEndExpected
    let t ← peek
    match t.word with
    | .key =>
      advance
      let k ← valueUnless [.value, .flowEntry, .flowMappingEnd] false false t.line fuel
      let v ← flowValue [.flowEntry, .flowMappingEnd] fuel
      return (k, v) :: (← flowEntries false fuel)
    | .flowMappingEnd =>
      advance
      return []
    | _ =>
      let k ← value false false fuel
      let t ← peek
      -- A key without a mark in front has no colon after it either.
      return (k, missing t.line) :: (← flowEntries false fuel)

/-- The value of a key between brackets, nothing if no colon follows. -/
def flowValue (ends : List Word) : Nat → Read Node
  | 0 => throw (.problem .nestedTooDeep 0)
  | fuel + 1 => do
    let t ← peek
    match t.word with
    | .value =>
      advance
      valueUnless ends false false t.line fuel
    | _ => return missing t.line

end

/-! ## Documents -/

/-- The handles of tags that every document knows. -/
def defaultHandles : List (String × String) :=
  [("!", "!"), ("!!", standardHandle)]

/-- Reads the directives in front of a document; their handles come before the known ones. -/
def directives (version : Bool) (handles : List (String × String)) :
    Nat → Read (List (String × String))
  | 0 => return handles ++ defaultHandles
  | fuel + 1 => do
    let t ← peek
    match t.word with
    | .directive (.version major _) =>
      if version then throw (.problem .duplicateVersion t.line)
      if major ≠ 1 then throw (.problem .incompatibleVersion t.line)
      advance
      directives true handles fuel
    | .directive (.handle handle replacement) =>
      if (handles.lookup handle).isSome then throw (.problem (.duplicateHandle handle) t.line)
      advance
      directives version ((handle, replacement) :: handles) fuel
    | .directive .other =>
      advance
      directives version handles fuel
    | _ => return handles ++ defaultHandles

/-- Passes the marks of document ends that come next. -/
def skipEnds : Nat → Read Unit
  | 0 => return
  | fuel + 1 => do
    if ← nextIn [.documentEnd] then
      advance
      skipEnds fuel

/-- Reads the start of a document with a mark; answers whether there is one, else the text ends.
The line is that of its first token. -/
def documentStart (fuel : Nat) : Read (Option Nat) := do
  skipEnds fuel
  let t ← peek
  if t.word == .streamEnd then return none
  let handles ← directives false [] fuel
  if ← nextIn [.documentStart] then
    advance
    modify fun r => { r with handles }
    return some t.line
  else unexpected .documentStartExpected

/-- Whether a document without a mark ends before it began. -/
def isDocumentBoundary : Word → Bool
  | .directive _ => true
  | .documentStart => true
  | .documentEnd => true
  | .streamEnd => true
  | _ => false

/-- The only document of a text; none if there is no document. -/
def document (fuel : Nat) : Read (Option Node) := do
  let t ← peek
  let starts ←
    if isDocumentBoundary t.word && t.word != .documentEnd then documentStart fuel
    else do
      modify fun r => { r with handles := defaultHandles }
      pure (some t.line)
  match starts with
  | none => return none
  | some _ =>
    let next ← peek
    let marked := isDocumentBoundary t.word && t.word != .documentEnd
    let root ←
      if marked && isDocumentBoundary next.word then pure (missing next.line)
      else value true false fuel
    if ← nextIn [.documentEnd] then advance
    match ← documentStart fuel with
    | none => return some root
    -- One text holds one document.
    | some line => throw (.problem .secondDocument line)

end Node

/-- The outermost node of a document, and what its names stand for. -/
structure Tree where
  root : Node
  names : List (String × Node)

/-- The tree that tokens spell; none for a text without a document. -/
def Tree.ofTokens? (tokens : List Token) (fault : Option Fault) : Except Fault (Option Tree) := do
  let (root, r) ← (Node.document (4 * tokens.length + 8)).run { tokens, fault }
  return root.map fun n => ⟨n, r.anchors⟩

end Storyline.Yaml
