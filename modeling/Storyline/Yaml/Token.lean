import Storyline.Yaml.Cursor

/-!
# Tokens of a YAML text

The words of a YAML text: indicators, properties and scalars, and the starts and ends of blocks,
which indentation implies.

## Main definitions

* `Directive`: a line that says how the document is to be read
* `Word`: a token without its place
* `Token`: a token and its line
-/

namespace Storyline.Yaml

/-- A line that says how the document is to be read. -/
inductive Directive where
  | version (major minor : Nat)
  | handle (handle replacement : String)
  | other
  deriving Repr, DecidableEq

/-- A token without its place. -/
inductive Word where
  | streamEnd
  | directive (d : Directive)
  | documentStart
  | documentEnd
  | blockSequenceStart
  | blockMappingStart
  | blockEnd
  | flowSequenceStart
  | flowMappingStart
  | flowSequenceEnd
  | flowMappingEnd
  | key
  | value
  | blockEntry
  | flowEntry
  | alias (name : String)
  | anchor (name : String)
  | tag (handle : Option String) (suffix : String)
  | scalar (text : List Char) (plain : Bool)
  deriving Repr, DecidableEq

/-- What messages call a token. -/
def Word.name : Word → String
  | .streamEnd => "<stream end>"
  | .directive _ => "<directive>"
  | .documentStart => "<document start>"
  | .documentEnd => "<document end>"
  | .blockSequenceStart => "<block sequence start>"
  | .blockMappingStart => "<block mapping start>"
  | .blockEnd => "<block end>"
  | .flowSequenceStart => "["
  | .flowMappingStart => "\x7b"
  | .flowSequenceEnd => "]"
  | .flowMappingEnd => "\x7d"
  | .key => "?"
  | .value => ":"
  | .blockEntry => "-"
  | .flowEntry => ","
  | .alias _ => "<alias>"
  | .anchor _ => "<anchor>"
  | .tag .. => "<tag>"
  | .scalar .. => "<scalar>"

/-- A token and the line on which it starts. -/
structure Token where
  word : Word
  line : Nat
  deriving Repr, DecidableEq

end Storyline.Yaml
