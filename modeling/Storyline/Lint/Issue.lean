import Storyline.Warning
import Storyline.Yaml.Fault

/-!
# Issues of a story

What a check of a story finds.  Some findings are errors, which make a story unplayable, others
warnings, which are likely mistakes.

## Main definitions

* `Severity`, `Finding`: how bad a finding is, and what was found
* `Issue`: a finding and its place
* `hasErrors`: whether there is an error among issues
-/

namespace Storyline.Lint

/-- How bad a finding is. -/
inductive Severity where
  | error
  | warning
  deriving Repr, DecidableEq

/-- The name of a severity. -/
def Severity.name : Severity → String
  | .error => "error"
  | .warning => "warning"

/-- What a check finds. -/
inductive Finding where
  /-- The scene with which a story starts is not there. -/
  | missingStart (scene : String)
  /-- A choice leads to a scene that is not there. -/
  | undefinedScene (scene : String)
  /-- A condition cannot be evaluated, in these words. -/
  | badCondition (problem : String)
  /-- An assignment cannot be carried out. -/
  | badAssignment (problem : Warning)
  /-- A picture shows a character that is not there. -/
  | unknownCharacter (id : String)
  /-- A text mentions a character that is not there. -/
  | unknownMention (id : String)
  /-- A trigger leads to a scene that is not there. -/
  | undefinedTriggerScene (name scene : String)
  /-- The condition of a trigger cannot be evaluated, in these words. -/
  | badTrigger (name problem : String)
  /-- No choice and no trigger leads to a scene. -/
  | orphan (scene : String)
  /-- A block is not a YAML text. -/
  | badYaml (problem : Yaml.Problem)
  /-- A block holds a character that may not stand in a YAML text. -/
  | badCharacter (c : Char) (place : Nat)
  | unbalancedQuotes
  | unquotedMarks
  | bareGreaterThan
  /-- Two scenes have one name. -/
  | duplicateScene (scene : String) (firstLine : Nat)
  /-- A script is not a story, in these words. -/
  | noStory (problem : String)
  deriving Repr, DecidableEq

namespace Finding

/-- How bad a finding is. -/
def severity : Finding → Severity
  | .missingStart _ | .undefinedScene _ | .undefinedTriggerScene _ _ => .error
  | .badYaml _ | .badCharacter _ _ | .noStory _ => .error
  | _ => .warning

/-- The words of a finding. -/
def message : Finding → String
  | .missingStart scene => s!"Missing required \"# {scene}\" scene"
  | .undefinedScene scene => s!"Referenced scene \"{scene}\" is not defined"
  | .badCondition problem => problem
  | .badAssignment problem => problem.message
  | .unknownCharacter id => s!"Unknown character \"{id}\" in image-gen block"
  | .unknownMention id => s!"Mention \"@{id}\" does not match a character"
  | .undefinedTriggerScene v scene =>
    s!"Trigger of variable \"{v}\" targets undefined scene \"{scene}\""
  | .badTrigger v problem => s!"Trigger of variable \"{v}\": {problem}"
  | .orphan scene => s!"Scene \"{scene}\" is defined but never referenced (orphan)"
  | .badYaml problem => s!"YAML parsing failed: {problem.message}"
  | .badCharacter c place => "YAML parsing failed: " ++ Yaml.unreadableMessage c place
  | .unbalancedQuotes => "Unbalanced double quotes in value"
  | .unquotedMarks => "Value contains special characters (: or #) - should be quoted"
  | .bareGreaterThan => "Value contains \">\" character - may cause YAML parsing issues"
  | .duplicateScene scene line =>
    s!"Duplicate scene ID \"{scene}\" (first defined on line {line})"
  | .noStory problem => problem

end Finding

/-- A finding and where it is, as far as that is known. -/
structure Issue where
  finding : Finding
  line : Option Nat := none
  scene : Option String := none
  block : Option String := none
  deriving Repr, DecidableEq

/-- How bad an issue is. -/
def Issue.severity (i : Issue) : Severity :=
  i.finding.severity

/-- The words of an issue. -/
def Issue.message (i : Issue) : String :=
  i.finding.message

/-- Whether an issue is an error. -/
def Issue.isError (i : Issue) : Bool :=
  i.severity == .error

/-- Whether there is an error among issues. -/
def hasErrors (issues : List Issue) : Bool :=
  issues.any Issue.isError

end Storyline.Lint
