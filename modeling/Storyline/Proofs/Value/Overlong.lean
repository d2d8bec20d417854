import Storyline.Proofs.Number.Range
import Storyline.Proofs.Outcome
import Storyline.Value.Text

/-!
# Values that are too long to be written

Data can hold integers with more digits than are written, since an integer need not be spelled in
decimal. A value in which there is such an integer, wherever it stands, has no text, and every other
value has one.

## Main definitions

* `Value.overlong`: whether an integer in a value has too many digits

## Main results

* `fault?_literal`, `fault?_text`: exactly the values with such an integer are not written
-/

namespace Storyline.Value

open Except

mutual

/-- Whether an integer in a value has more digits than are written. -/
def overlong : Value → Bool
  | .int n => 10 ^ digitLimit ≤ n.natAbs
  | .set members => overlongAmong members
  | .pair first second => overlong first || overlong second
  | .list items => overlongAmong items
  | .map entries => overlongAmongEntries entries
  | _ => false

/-- Whether an integer in one of some values has too many digits. -/
def overlongAmong : List Value → Bool
  | [] => false
  | v :: vs => overlong v || overlongAmong vs

/-- Whether an integer in one of some entries has too many digits. -/
def overlongAmongEntries : List (Value × Value) → Bool
  | [] => false
  | (k, v) :: es => overlong k || overlong v || overlongAmongEntries es

end

/-- The fault of a value that is written out, if it is too long. -/
def lengthFault? (overlong : Bool) : Option NumberFault :=
  if overlong then some .tooLongToWrite else none

theorem lengthFault?_or (a b : Bool) :
    lengthFault? (a || b) = (lengthFault? a).or (lengthFault? b) := by
  cases a <;> rfl

theorem fault?_writeInt (n : Int) :
    (Number.writeInt n).fault? = lengthFault? (10 ^ digitLimit ≤ n.natAbs) := by
  have hlong : digitLimit < (Nat.toDigits 10 n.natAbs).length ↔ 10 ^ digitLimit ≤ n.natAbs := by
    rw [← not_le, Nat.length_toDigits_le_iff (by decide) (by decide), not_lt]
  rw [Number.writeInt]
  split
  · next h => rw [decide_eq_true (hlong.1 h), lengthFault?, if_pos rfl, fault?]
  · next h => rw [decide_eq_false fun h' => h (hlong.2 h'), lengthFault?, if_neg Bool.false_ne_true,
      fault?]

mutual

theorem fault?_literal : (v : Value) → v.literal.fault? = lengthFault? v.overlong
  | .null | .bool _ | .float _ | .str _ | .date _ | .moment _ | .bytes _ => rfl
  | .int n => fault?_writeInt n
  | .set members => by
    rw [literal, overlong, ← fault?_literals members]
    split
    · next h =>
      rw [List.isEmpty_iff.1 h]
      rfl
    · exact fault?_map _ _
  | .pair first second => by
    rw [literal, overlong, lengthFault?_or, ← fault?_literal first, ← fault?_literal second]
    exact fault?_bind fun a _ => fault?_map _ _
  | .list items => (fault?_map _ _).trans (fault?_literals items)
  | .map entries => (fault?_map _ _).trans (fault?_entryLiterals entries)

theorem fault?_literals : (vs : List Value) → (literals vs).fault? = lengthFault? (overlongAmong vs)
  | [] => rfl
  | v :: vs => by
    rw [literals, overlongAmong, lengthFault?_or, ← fault?_literal v, ← fault?_literals vs]
    exact fault?_bind fun a _ => fault?_map _ _

theorem fault?_entryLiterals : (es : List (Value × Value)) →
    (entryLiterals es).fault? = lengthFault? (overlongAmongEntries es)
  | [] => rfl
  | (k, v) :: es => by
    rw [entryLiterals, overlongAmongEntries, lengthFault?_or, lengthFault?_or, ← fault?_literal k,
      ← fault?_literal v, ← fault?_entryLiterals es, Option.or_assoc]
    exact fault?_bind fun a _ => fault?_bind fun b _ => fault?_map _ _

end

/-- **Exactly the values with an integer of too many digits have no text.** -/
theorem fault?_text (v : Value) : v.text.fault? = lengthFault? v.overlong := by
  cases v with
  | str | date | moment => rfl
  | _ => exact fault?_literal _

end Storyline.Value
