import Storyline.Proofs.Yaml.Written
import Storyline.Script.Written

/-!
# The data that stories are written as

Front matter and the fields of generated media are mappings from names to data, whatever the story
holds.

## Main definitions

* `Held`: a field that, if it holds something, holds data

## Main results

* `data_metadataEntries`: the front matter of a story is data
* `data_mediaFields`: the fields of generated media are data
-/

namespace Storyline.Script

open Schema (writeStrings writeNumber writeTrigger writeVariableInfo writeInitialValue
  writeCharacter)
open Yaml (Data)

/-! ## Fields -/

/-- Whether what a field holds, if it holds something, is data. -/
def Held (field : Option Value) : Prop :=
  ∀ v ∈ field, Data v

theorem held_none : Held none :=
  nofun

theorem held_some {v : Value} (h : Data v) : Held (some v) := by
  rintro u ⟨⟩
  exact h

theorem held_map {α : Type} {f : α → Value} (hf : ∀ a, Data (f a)) (o : Option α) :
    Held (o.map f) := by
  cases o with
  | none => exact held_none
  | some a => exact held_some (hf a)

theorem held_ite {p : Prop} [Decidable p] {a b : Option Value} (ha : Held a) (hb : Held b) :
    Held (if p then a else b) := by
  split
  · exact ha
  · exact hb

theorem data_asEntries {fields : List (String × Value)} (h : ∀ p ∈ fields, Data p.2) :
    Data (.map (asEntries fields)) := by
  refine .map (fun e he => ?_) fun e he => ?_
  · obtain ⟨p, -, rfl⟩ := List.mem_map.1 he
    exact ⟨p.1, rfl⟩
  · obtain ⟨p, hp, rfl⟩ := List.mem_map.1 he
    exact h p hp

theorem data_ofMapping {α : Type} {f : α → Value} (hf : ∀ a, Data (f a)) (m : Mapping α) :
    Data (Value.ofMapping f m) := by
  refine data_asEntries fun p hp => ?_
  obtain ⟨q, -, rfl⟩ := List.mem_map.1 hp
  exact hf q.2

theorem data_of_mem_heldFields {fields : List (String × Option Value)}
    (h : ∀ p ∈ fields, Held p.2) : ∀ p ∈ heldFields fields, Data p.2 := by
  intro p hp
  obtain ⟨q, hq, hp⟩ := List.mem_filterMap.1 hp
  obtain ⟨v, hv, rfl⟩ := Option.map_eq_some_iff.1 hp
  exact h q hq v hv

/-- A record of fields that hold data. -/
theorem data_heldFields {fields : List (String × Option Value)} (h : ∀ p ∈ fields, Held p.2) :
    Data (.map (asEntries (heldFields fields))) :=
  data_asEntries (data_of_mem_heldFields h)

/-! ## Values of a story -/

theorem data_ofScalar (s : Scalar) : Data (.ofScalar s) := by
  cases s with
  | bool b => exact .bool b
  | int n => exact .int n
  | float x => exact .float x
  | str s => exact .str s

theorem data_writeNumber (n : Number) : Data (writeNumber n) := by
  cases n with
  | int n => exact .int n
  | float x => exact .float x

theorem data_writeStrings (ss : List String) : Data (writeStrings ss) := by
  refine .list fun v hv => ?_
  obtain ⟨s, -, rfl⟩ := List.mem_map.1 hv
  exact .str s

theorem data_writeTrigger (t : Trigger) : Data (writeTrigger t) := by
  refine data_asEntries ?_
  simp only [List.forall_mem_cons]
  exact ⟨.str _, .str _, nofun⟩

theorem data_writeVariableInfo (i : VariableInfo) : Data (writeVariableInfo i) := by
  refine data_heldFields ?_
  simp only [List.forall_mem_cons]
  exact ⟨held_some (data_ofScalar _), held_map .bool _, held_map (fun _ => .str _) _,
    held_map data_writeNumber _, held_map .str _, held_map .str _, held_map data_writeTrigger _,
    nofun⟩

theorem data_writeInitialValue (v : InitialValue) : Data (writeInitialValue v) := by
  cases v with
  | plain s => exact data_ofScalar s
  | described i => exact data_writeVariableInfo i

theorem data_writeCharacter (c : Character) : Data (writeCharacter c) := by
  refine data_heldFields ?_
  simp only [List.forall_mem_cons]
  exact ⟨held_some (.str _), held_map .str _, held_map .str _, held_map .str _, held_map .str _,
    nofun⟩

theorem data_variableNote (p : String × String) : Data (variableNote p) := by
  refine data_asEntries ?_
  simp only [List.forall_mem_cons]
  exact ⟨.str _, nofun⟩

theorem held_nonEmptyRecord? {fields : List (String × Option Value)} (h : ∀ p ∈ fields, Held p.2) :
    Held (nonEmptyRecord? fields) :=
  held_ite held_none (held_some (data_heldFields h))

/-! ## Front matter and fences -/

/-- The front matter of a story is data. -/
theorem data_metadataEntries (g : Game) : Data (.map (asEntries (metadataEntries g))) := by
  have hmaking : ∀ p ∈ [("style", (nonEmpty? g.making.style).map (Value.ofMapping .str)),
      ("characters", (nonEmpty? g.making.characters).map (Value.ofMapping writeCharacter))],
      Held p.2 := by
    simp only [List.forall_mem_cons]
    exact ⟨held_map (data_ofMapping .str) _, held_map (data_ofMapping data_writeCharacter) _, nofun⟩
  refine data_heldFields ?_
  simp only [List.forall_mem_cons]
  exact ⟨held_some (.str _), held_map .str _, held_map .str _, held_map .str _, held_map .str _,
    held_map .str _, held_ite held_none (held_some (data_writeStrings _)),
    held_ite (held_some (.bool _)) held_none, held_map .str _,
    held_map (data_ofMapping data_writeInitialValue) _, held_nonEmptyRecord? hmaking, nofun⟩

/-- The fields of generated media are data. -/
theorem data_mediaFields (media : Generated) : Data (.map (asEntries (mediaFields media))) := by
  cases media with
  | image prompt character characters url =>
    refine data_heldFields ?_
    simp only [List.forall_mem_cons]
    exact ⟨held_some (.str _), held_map .str _, held_map data_writeStrings _, held_map .str _,
      nofun⟩
  | audio kind prompt url =>
    refine data_heldFields ?_
    simp only [List.forall_mem_cons]
    exact ⟨held_some (.str _), held_some (.str _), held_map .str _, nofun⟩
  | video prompt url =>
    refine data_heldFields ?_
    simp only [List.forall_mem_cons]
    exact ⟨held_some (.str _), held_map .str _, nofun⟩
  | minigame prompt notes url =>
    have hnotes (vs : Mapping String) : Data (.list (vs.toList.map variableNote)) := by
      refine .list fun v hv => ?_
      obtain ⟨p, -, rfl⟩ := List.mem_map.1 hv
      exact data_variableNote p
    refine data_heldFields ?_
    simp only [List.forall_mem_cons]
    exact ⟨held_some (.str _), held_map hnotes _, held_map .str _, nofun⟩

theorem metadataEntries_ne_nil (g : Game) : asEntries (metadataEntries g) ≠ [] :=
  List.cons_ne_nil _ _

end Storyline.Script
