import Storyline.Play
import Storyline.Schema.Document

/-!
# Sessions as documents

How sessions are exchanged: the scene, the variables, and the turns before, the latest last.

## Main definitions

* `readSession`, `writeSession`: sessions from documents, and documents from sessions
-/

namespace Storyline.Schema

/-- A turn. -/
def readTurn (rules : Rules) : Value → Checked Turn :=
  record rules fun fs =>
    Turn.mk <$> required ["scene_id"] readString fs <*> required ["state"] readState fs

/-- A session. -/
def readSession (rules : Rules) : Value → Checked Session :=
  record rules fun fs =>
    (fun scene state history => Session.mk scene state (List.reverse history))
      <$> required ["scene_id"] readString fs
      <*> withDefault ["state"] Mapping.empty readState fs
      <*> withDefault ["history"] [] (readList (readTurn rules)) fs

/-- A turn. -/
def writeTurn (t : Turn) : Value :=
  Value.record [("scene_id", .str t.scene), ("state", writeState t.state)]

/-- A session. -/
def writeSession (s : Session) : Value :=
  Value.record [("scene_id", .str s.scene), ("state", writeState s.state),
    ("history", .list (s.past.reverse.map writeTurn))]

end Storyline.Schema
