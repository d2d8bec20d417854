import Storyline.Proofs.Outcome
import Storyline.Proofs.Schema.Record
import Storyline.Script.Metadata
import Storyline.Script.Written

/-!
# Written fields, read generously

A script is read generously: where text is wanted any value stands for its text, and blank text
counts as missing. What is written in canonical form needs none of that. Each field is found under
its name, and a text stands for itself.

## Main definitions

* `Shows`: a text that is missing or not blank

## Main results

* `valueAt_heldFields`: the value of a field that is written if it holds something
* `textOf?_written`, `shownText?_written`: texts that may be missing
* `mapM_written`: one reading for each of the written values
-/

namespace Storyline.Script

open Text

section

variable {fields : List (String × Value)} {name : String} {v : Value}

/-- Fields without optional ones among them. -/
theorem asEntries_eq (fields : List (String × Value)) :
    asEntries fields = Schema.entriesOf (fields.map fun p => (p.1, some p.2)) :=
  Value.map.inj (Schema.record_eq_writeFields fields)

theorem find?_asEntries (hdistinct : (fields.map Prod.fst).Nodup) (h : (name, v) ∈ fields) :
    Value.find? (asEntries fields) name = some v := by
  rw [asEntries_eq]
  exact Schema.find?_entriesOf (by simpa [Function.comp_def] using hdistinct)
    (List.mem_map_of_mem (f := fun p => (p.1, some p.2)) h)

theorem find?_asEntries_of_not_mem (h : name ∉ fields.map Prod.fst) :
    Value.find? (asEntries fields) name = none := by
  rw [asEntries_eq]
  exact Schema.find?_entriesOf_of_not_mem (by simpa [Function.comp_def] using h)

end

section

variable {fields : List (String × Option Value)} {name : String} {o : Option Value}

/-- A field is found under its name if it holds something. -/
theorem find?_heldFields (hdistinct : (fields.map Prod.fst).Nodup) (h : (name, o) ∈ fields) :
    Value.find? (asEntries (heldFields fields)) name = o :=
  Schema.find?_entriesOf hdistinct h

theorem find?_heldFields_of_not_mem (h : name ∉ fields.map Prod.fst) :
    Value.find? (asEntries (heldFields fields)) name = none :=
  Schema.find?_entriesOf_of_not_mem h

/-- A field that holds nothing is read like one that is nothing. -/
theorem valueAt_heldFields (hdistinct : (fields.map Prod.fst).Nodup) (h : (name, o) ∈ fields) :
    valueAt (asEntries (heldFields fields)) name = o.getD .null := by
  rw [valueAt, find?_heldFields hdistinct h]

end

/-! ## Texts -/

/-- Whether a text that may be missing is not blank if it is there. -/
def Shows (o : Option String) : Prop :=
  ∀ t ∈ o, allBlank t = false

theorem gives_shows (v : Value) : (shownText? v).Gives Shows := by
  refine Except.gives_bind fun o => Except.gives_ok fun t ht => ?_
  simpa using (Option.filter_eq_some_iff.1 ht).2

/-- A text that may be missing stands for itself. -/
theorem textOf?_written (o : Option String) :
    textOf? ((o.map Value.str).getD .null) = .ok o := by
  cases o <;> rfl

/-- A text that may be missing and is not blank stands for itself. -/
theorem shownText?_written {o : Option String} (h : Shows o) :
    shownText? ((o.map Value.str).getD .null) = .ok o := by
  have hkept : o.filter (fun t => !allBlank t) = o := by
    cases o with
    | none => rfl
    | some t => rw [Option.filter_some, h t rfl, Bool.not_false, if_pos rfl]
  rw [shownText?, textOf?_written]
  exact congrArg Except.ok hkept

/-- One reading for each of the written values gives back what was written. -/
theorem mapM_written {α β ε : Type} {read : β → Except ε α} {write : α → β} {as : List α}
    (h : ∀ a ∈ as, read (write a) = .ok a) : (as.map write).mapM read = .ok as := by
  rw [Except.mapM_eq_ok_iff, List.forall₂_map_left_iff, List.forall₂_same]
  exact h

end Storyline.Script
