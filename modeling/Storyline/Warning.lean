/-!
# Warnings

What the library reports beside a result: things in a story that it leaves out or does not
understand, none of which stops it.

## Main definitions

* `Warning`: what was noticed
* `Warning.message`: the words for it
-/

namespace Storyline

/-- Something in a story that was left out or not understood. -/
inductive Warning where
  /-- A condition that is neither an operand nor a comparison of two. -/
  | unsupportedCondition (condition : String)
  /-- An assignment without a name, an equals sign and an expression. -/
  | invalidAssignment (text : String)
  /-- A sum or difference of operands that are not both numbers. -/
  | invalidArithmetic (text : String)
  /-- An assignment of something that has no value. -/
  | undefinedValue (text : String)
  /-- Text after the clauses of a choice. -/
  | textAfterChoice (line : Nat) (text : String)
  /-- Text before the first scene header. -/
  | textBeforeScenes (line : Nat)
  /-- A scene whose name an earlier scene has. -/
  | duplicateScene (scene : String) (line : Nat)
  /-- Narration in front of something that is not text. -/
  | narrationWithoutText (scene : String) (line : Nat)
  /-- Narration at the end of a scene. -/
  | narrationAtEnd (scene : String)
  /-- A trigger that leads to a scene that does not exist. -/
  | missingTriggerScene (scene : String)
  deriving Repr, DecidableEq

/-- The words of a warning. -/
def Warning.message : Warning → String
  | .unsupportedCondition c => s!"Unsupported condition format: {c}"
  | .invalidAssignment t => s!"Invalid set statement: {t}"
  | .invalidArithmetic t => s!"Invalid arithmetic operands in: {t}"
  | .undefinedValue t => s!"Cannot assign undefined value in: {t}"
  | .textAfterChoice line t => s!"Ignoring unrecognised text after choice on line {line}: {t}"
  | .textBeforeScenes line => s!"Ignoring content before the first scene header (line {line})"
  | .duplicateScene scene line =>
    s!"Duplicate scene id '{scene}' on line {line}; the later scene wins"
  | .narrationWithoutText scene line =>
    s!"Audio comment on scene '{scene}' is not followed by text (line {line}); dropped"
  | .narrationAtEnd scene => s!"Audio comment at the end of scene '{scene}' has no text; dropped"
  | .missingTriggerScene scene =>
    s!"Trigger target scene '{scene}' does not exist; ignoring"

end Storyline
