import Storyline.Lint.Story
import Storyline.Script.Block
import Storyline.Script.Media

/-!
# Stories from scripts

A script becomes a story: its front matter is read, the lines of its scenes are cut into blocks, and
every block but narration becomes a node.  Narration belongs to the text right after it.

## Main definitions

* `nodes`, `scene`: the nodes of blocks, and the scene of a draft
* `compile`: the story of a script
* `parse`: the same for any text; a text that is no story is rejected
-/

namespace Storyline.Script

/-! ## Scenes -/

/-- The node of a block that is neither text nor narration, at a place. -/
def blockNode (place : Place) (b : Block) : Except Failure (Node Generated) :=
  match b.form with
  | .text content => .ok (.text content none)
  | .choice text target clauses =>
    let clause (name : String) := (clauses.get? name).filter fun c => !c.isEmpty
    .ok (.choice { text := Text.trimmed text, target := target, condition := clause "if",
                   assignment := clause "set", audio := clause "audio" })
  | .image url alt => .ok (.image url (if alt.isEmpty then none else some alt))
  | .audio url => .ok (.audio url)
  | .video url => .ok (.video url)
  | .fence name content => do
    return .generated (← readMedia name place (← loadBlock name content place))
  | .narration _ => .error (.fault { cause := .unknownForm "audio_comment", place := place })
  | .unknown kind =>
    .error (.fault { cause := .unknownForm kind, place := { place with node := none } })

/-- A warning if there is narration in front of something that is no text. -/
def warnDropped (scene : String) (narration : Option String) (line : Nat) : Logged Failure Unit :=
  match narration with
  | some _ => .warn (.narrationWithoutText scene line)
  | none => pure ()

/-- The nodes of the blocks of a scene, of which the first has the number `index`; `narration` is
waiting for its text. -/
def nodes (scene : String) (index : Nat) (narration : Option String) :
    List Block → Logged Failure (List (Node Generated))
  | [] =>
    match narration with
    | some _ => do
      Logged.warn (.narrationAtEnd scene)
      return []
    | none => pure []
  | b :: bs =>
    match b.form with
    | .narration url => nodes scene index (some url) bs
    | .text content => do
      return .text content narration :: (← nodes scene (index + 1) none bs)
    | _ => do
      warnDropped scene narration b.line
      let node ← Logged.lift (blockNode { scene := scene, node := index, line := b.line } b)
      return node :: (← nodes scene (index + 1) none bs)

/-- The scene of a draft. -/
def scene (d : Draft) : Logged Failure (Scene Generated) := do
  return { id := d.id, nodes := ← nodes d.id 0 none d.blocks }

/-- The scenes so far with the scene of one more draft.  Of scenes with one name the last counts, at
the place of the first. -/
def addScene (scenes : Mapping (Scene Generated)) (d : Draft) :
    Logged Failure (Mapping (Scene Generated)) := do
  if scenes.contains d.id then Logged.warn (.duplicateScene d.id d.line)
  return scenes.insert d.id (← scene d)

/-! ## Stories -/

/-- The parts of a script that has front matter. -/
def parts (source : String) : Except Failure Parts :=
  match split? source with
  | some p => .ok p
  | none => .error (.fault { cause := .noFrontMatter })

/-- The story of a script. -/
def compile (source : String) : Logged Failure Game := do
  let p ← Logged.lift (parts source)
  let metadata ← Logged.lift (loadMetadata p.metadata)
  let drafts ← (drafts p.bodyLine p.body).mapError Failure.fault
  let scenes ← drafts.foldlM addScene Mapping.empty
  let game ← Logged.lift (readMetadata metadata)
  return { game with scenes := scenes }

/-- Why a text is no story. -/
inductive Rejection where
  | blank
  | fault (f : Fault)
  | problems (ps : List Schema.Problem)
  /-- The story has errors, which is no reason unless asked for. -/
  | errors (issues : List Lint.Issue)

/-- The words of a rejection. The problems of a document are not in its words but beside them, as
`Rejection.problems?` has them. -/
def Rejection.message : Rejection → String
  | .blank => Cause.noFrontMatter.message ""
  | .fault f => f.message
  | .problems _ => "Invalid game data"
  | .errors issues => "; ".intercalate (issues.map Lint.Issue.message)

/-- The problems that a rejection lists beside its words. -/
def Rejection.problems? : Rejection → Option (List Schema.Problem)
  | .problems ps => some ps
  | _ => none

/-- The story of a text, or why it is none.  If `strict`, a story with errors is rejected. -/
def parse (strict : Bool) (source : String) : Logged Yaml.Defect (Except Rejection Game) :=
  if Text.allBlank source then pure (.error .blank)
  else
    let compiled := compile source
    match compiled.result with
    | .error (.fault f) => ⟨compiled.warnings, .ok (.error (.fault f))⟩
    | .error (.problems ps) => ⟨compiled.warnings, .ok (.error (.problems ps))⟩
    | .error (.defect d) => ⟨compiled.warnings, .error d⟩
    | .ok g =>
      if !strict then ⟨compiled.warnings, .ok (.ok g)⟩
      else match Lint.checkGame g with
        | .error f => ⟨compiled.warnings, .error (.number f)⟩
        | .ok issues =>
          let errors := issues.filter Lint.Issue.isError
          ⟨compiled.warnings, .ok (if errors.isEmpty then .ok g else .error (.errors errors))⟩

end Storyline.Script
