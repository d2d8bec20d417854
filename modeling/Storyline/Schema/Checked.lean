/-!
# Problems of a document

Reading a document as a story collects every problem, each with the path to the place where it is.
Parts are read independently, and the problems stand in the order of the parts.

## Main definitions

* `ProblemKind`, `Problem`: what is wrong, and where
* `Checked α`: a result, or problems
* `Checked.under`: problems seen from outside a part
-/

namespace Storyline.Schema

/-- What is wrong at one place of a document. -/
inductive ProblemKind where
  | missing
  | notString
  | notUnicode
  | notBool
  | noBoolSpelled
  | notInt
  | noIntSpelled
  | intTooLong
  | fractionForInt
  | notFinite
  | notFloat
  | noFloatSpelled
  | notChoice
  | notList
  | notMapping
  | notRecord
  | notRecordOrObject
  | unknownTag
  | missingTag
  deriving Repr, DecidableEq

/-- The name of a problem. -/
def ProblemKind.name : ProblemKind → String
  | .missing => "missing"
  | .notString => "string_type"
  | .notUnicode => "string_unicode"
  | .notBool => "bool_type"
  | .noBoolSpelled => "bool_parsing"
  | .notInt => "int_type"
  | .noIntSpelled => "int_parsing"
  | .intTooLong => "int_parsing_size"
  | .fractionForInt => "int_from_float"
  | .notFinite => "finite_number"
  | .notFloat => "float_type"
  | .noFloatSpelled => "float_parsing"
  | .notChoice => "literal_error"
  | .notList => "list_type"
  | .notMapping => "dict_type"
  | .notRecord => "model_type"
  | .notRecordOrObject => "model_attributes_type"
  | .unknownTag => "union_tag_invalid"
  | .missingTag => "union_tag_not_found"

/-- A problem and the path to its place. -/
structure Problem where
  path : List String
  kind : ProblemKind
  deriving Repr, DecidableEq

/-- The path of a problem with points between its steps. -/
def Problem.location (p : Problem) : String :=
  ".".intercalate p.path

/-- What reading a part of a document gives. -/
inductive Checked (α : Type) where
  | ok (a : α)
  | bad (problems : List Problem)

namespace Checked

variable {α β : Type}

/-- One problem at the place itself. -/
def problem (kind : ProblemKind) : Checked α :=
  .bad [⟨[], kind⟩]

/-- The problems of a part, with the name of the part in front of their paths. -/
def under (step : String) : Checked α → Checked α
  | .ok a => .ok a
  | .bad ps => .bad (ps.map fun p => { p with path := step :: p.path })

/-- The result with a function applied. -/
def map (f : α → β) : Checked α → Checked β
  | .ok a => .ok (f a)
  | .bad ps => .bad ps

/-- A combination of two parts; the problems of the first come first. -/
def seq (f : Checked (α → β)) (x : Checked α) : Checked β :=
  match f, x with
  | .ok g, .ok a => .ok (g a)
  | .ok _, .bad ps => .bad ps
  | .bad ps, .ok _ => .bad ps
  | .bad ps, .bad qs => .bad (ps ++ qs)

instance : Applicative Checked where
  pure := .ok
  map := map
  seq f x := seq f (x ())

/-- Whether there is a result. -/
def isOk : Checked α → Bool
  | .ok _ => true
  | .bad _ => false

/-- The problems; none beside a result. -/
def problems : Checked α → List Problem
  | .ok _ => []
  | .bad ps => ps

/-- The results of all parts. -/
def all : List (Checked α) → Checked (List α)
  | [] => .ok []
  | c :: cs => List.cons <$> c <*> all cs

/-- A result or problems as a result or a failure. -/
def toExcept : Checked α → Except (List Problem) α
  | .ok a => .ok a
  | .bad ps => .error ps

end Checked

end Storyline.Schema
