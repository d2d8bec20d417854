import Storyline.Main
import Storyline.Schema.Variables
import Storyline.Service
import Storyline.Proofs.Expr.Meaning
import Storyline.Proofs.Expr.Moderate
import Storyline.Proofs.Expr.Check
import Storyline.Proofs.Play.History
import Storyline.Proofs.Play.Projection
import Storyline.Proofs.Script.Escape
import Storyline.Proofs.Script.Framing
import Storyline.Proofs.Script.Prose
import Storyline.Proofs.Script.Region
import Storyline.Proofs.Yaml.Reading
import Storyline.Proofs.Script.Independence
import Storyline.Proofs.Schema.Exchange
import Storyline.Proofs.Schema.Disclosure
import Storyline.Proofs.Play.Orphan
import Storyline.Proofs.Play.Trigger
import Storyline.Proofs.Play.Variables
import Storyline.Proofs.Script.Normal
import Storyline.Proofs.Lint.Blocks
import Storyline.Proofs.Lint.Headers
import Storyline.Proofs.Expr.Sequence
import Storyline.Proofs.Expr.Swap
import Storyline.Proofs.Expr.Verbatim
import Storyline.Proofs.Script.Canonical.Media
import Storyline.Proofs.Script.Canonical.Metadata
import Storyline.Proofs.Script.Canonical.Lines
import Storyline.Proofs.Script.Narration
import Storyline.Proofs.Script.Repeats
import Storyline.Proofs.Script.Lossless
import Storyline.Proofs.Mention
import Storyline.Proofs.Expr.Joined
