import Storyline.Proofs.Script.Fields
import Storyline.Script.Media
import Storyline.Proofs.Yaml.Lasting

/-!
# The data of stories, read back

The data that a story is written as have every key once, so they are read back as themselves if
nothing in them is lost.

## Main results

* `distinct_metadataEntries`, `distinct_mediaFields`: no mapping has a key twice
* `topData_metadataEntries`, `topData_mediaFields`: front matter and fields are written as texts of
  their own
* `exists_loadMetadata`, `exists_loadBlock`: what lasts is loaded as it was written
-/

namespace Storyline.Script

open Schema (writeStrings writeNumber writeTrigger writeVariableInfo writeInitialValue
  writeCharacter)
open Yaml (Data Distinct TopData)

/-! ## Keys that are there once -/

/-- Whether what a field holds, if it holds something, has no key twice. -/
def HeldDistinct (d : Nat) (field : Option Value) : Prop :=
  ∀ v ∈ field, Distinct d v

variable {d : Nat}

theorem heldDistinct_none : HeldDistinct d none :=
  nofun

theorem heldDistinct_some {v : Value} (h : Distinct d v) : HeldDistinct d (some v) := by
  rintro u ⟨⟩
  exact h

theorem heldDistinct_map {α : Type} {f : α → Value} (hf : ∀ a, Distinct d (f a)) (o : Option α) :
    HeldDistinct d (o.map f) := by
  cases o with
  | none => exact heldDistinct_none
  | some a => exact heldDistinct_some (hf a)

theorem heldDistinct_ite {p : Prop} [Decidable p] {a b : Option Value} (ha : HeldDistinct d a)
    (hb : HeldDistinct d b) : HeldDistinct d (if p then a else b) := by
  split
  · exact ha
  · exact hb

theorem distinct_str (s : String) : Distinct d (.str s) :=
  .scalar rfl

theorem distinct_asEntries {fields : List (String × Value)} (hnodup : (fields.map Prod.fst).Nodup)
    (h : ∀ p ∈ fields, Distinct d p.2) : Distinct (d + 1) (.map (asEntries fields)) := by
  refine .map (fun e he => ?_) ?_ fun e he => ?_
  · obtain ⟨p, -, rfl⟩ := List.mem_map.1 he
    exact ⟨p.1, rfl⟩
  · have hkeys : (asEntries fields).map Prod.fst = (fields.map Prod.fst).map Value.str := by
      rw [asEntries, List.map_map, List.map_map]
      rfl
    rw [hkeys]
    exact hnodup.map fun _ _ he => Value.str.inj he
  · obtain ⟨p, hp, rfl⟩ := List.mem_map.1 he
    exact h p hp

theorem distinct_ofMapping {α : Type} {f : α → Value} (hf : ∀ a, Distinct d (f a))
    (m : Mapping α) : Distinct (d + 1) (Value.ofMapping f m) := by
  refine distinct_asEntries ?_ fun p hp => ?_
  · rw [List.map_map]
    exact m.nodup
  · obtain ⟨q, -, rfl⟩ := List.mem_map.1 hp
    exact hf q.2

theorem sublist_map_fst_heldFields (fields : List (String × Option Value)) :
    ((heldFields fields).map Prod.fst).Sublist (fields.map Prod.fst) := by
  induction fields with
  | nil => exact .slnil
  | cons p fields ih =>
    obtain ⟨name, value⟩ := p
    cases value with
    | none => exact ih.cons name
    | some v => exact ih.cons_cons name

/-- A record of fields with distinct names. -/
theorem distinct_heldFields {fields : List (String × Option Value)}
    (hnodup : (fields.map Prod.fst).Nodup) (h : ∀ p ∈ fields, HeldDistinct d p.2) :
    Distinct (d + 1) (.map (asEntries (heldFields fields))) := by
  refine distinct_asEntries (hnodup.sublist (sublist_map_fst_heldFields fields)) fun p hp => ?_
  obtain ⟨q, hq, hp⟩ := List.mem_filterMap.1 hp
  obtain ⟨v, hv, rfl⟩ := Option.map_eq_some_iff.1 hp
  exact h q hq v hv

theorem distinct_ofScalar (s : Scalar) : Distinct d (.ofScalar s) := by
  cases s <;> exact .scalar rfl

theorem distinct_writeNumber (n : Number) : Distinct d (writeNumber n) := by
  cases n <;> exact .scalar rfl

theorem distinct_writeStrings (ss : List String) : Distinct (d + 1) (writeStrings ss) := by
  refine .list fun v hv => ?_
  obtain ⟨s, -, rfl⟩ := List.mem_map.1 hv
  exact distinct_str s

theorem distinct_writeTrigger (t : Trigger) : Distinct (d + 1) (writeTrigger t) := by
  refine distinct_asEntries (by simp) ?_
  simp only [List.forall_mem_cons]
  exact ⟨distinct_str _, distinct_str _, nofun⟩

theorem distinct_writeVariableInfo (i : VariableInfo) : Distinct (d + 2) (writeVariableInfo i) := by
  refine distinct_heldFields (by simp) ?_
  simp only [List.forall_mem_cons]
  exact ⟨heldDistinct_some (distinct_ofScalar _), heldDistinct_map (fun _ => .scalar rfl) _,
    heldDistinct_map (fun _ => distinct_str _) _, heldDistinct_map distinct_writeNumber _,
    heldDistinct_map distinct_str _, heldDistinct_map distinct_str _,
    heldDistinct_map distinct_writeTrigger _, nofun⟩

theorem distinct_writeInitialValue (v : InitialValue) : Distinct (d + 2) (writeInitialValue v) := by
  cases v with
  | plain s => exact distinct_ofScalar s
  | described i => exact distinct_writeVariableInfo i

theorem distinct_writeCharacter (c : Character) : Distinct (d + 1) (writeCharacter c) := by
  refine distinct_heldFields (by simp) ?_
  simp only [List.forall_mem_cons]
  exact ⟨heldDistinct_some (distinct_str _), heldDistinct_map distinct_str _,
    heldDistinct_map distinct_str _, heldDistinct_map distinct_str _,
    heldDistinct_map distinct_str _, nofun⟩

theorem distinct_variableNote (p : String × String) : Distinct (d + 1) (variableNote p) := by
  refine distinct_asEntries (by simp) ?_
  simp only [List.forall_mem_cons]
  exact ⟨distinct_str _, nofun⟩

theorem heldDistinct_nonEmptyRecord? {fields : List (String × Option Value)}
    (hnodup : (fields.map Prod.fst).Nodup) (h : ∀ p ∈ fields, HeldDistinct d p.2) :
    HeldDistinct (d + 1) (nonEmptyRecord? fields) :=
  heldDistinct_ite heldDistinct_none (heldDistinct_some (distinct_heldFields hnodup h))

/-- No mapping in the front matter of a story has a key twice. -/
theorem distinct_metadataEntries (g : Game) :
    Distinct 4 (.map (asEntries (metadataEntries g))) := by
  have hmaking : ∀ p ∈ [("style", (nonEmpty? g.making.style).map (Value.ofMapping .str)),
      ("characters", (nonEmpty? g.making.characters).map (Value.ofMapping writeCharacter))],
      HeldDistinct 2 p.2 := by
    simp only [List.forall_mem_cons]
    exact ⟨heldDistinct_map (distinct_ofMapping distinct_str) _,
      heldDistinct_map (distinct_ofMapping distinct_writeCharacter) _, nofun⟩
  refine distinct_heldFields (by simp) ?_
  simp only [List.forall_mem_cons]
  exact ⟨heldDistinct_some (distinct_str _), heldDistinct_map distinct_str _,
    heldDistinct_map distinct_str _, heldDistinct_map distinct_str _,
    heldDistinct_map distinct_str _, heldDistinct_map distinct_str _,
    heldDistinct_ite heldDistinct_none (heldDistinct_some (distinct_writeStrings _)),
    heldDistinct_ite (heldDistinct_some (.scalar rfl)) heldDistinct_none,
    heldDistinct_map distinct_str _,
    heldDistinct_map (distinct_ofMapping distinct_writeInitialValue) _,
    heldDistinct_nonEmptyRecord? (by simp) hmaking, nofun⟩

/-- No mapping in the fields of generated media has a key twice. -/
theorem distinct_mediaFields (media : Generated) :
    Distinct 3 (.map (asEntries (mediaFields media))) := by
  cases media with
  | image prompt character characters url =>
    refine distinct_heldFields (by simp) ?_
    simp only [List.forall_mem_cons]
    exact ⟨heldDistinct_some (distinct_str _), heldDistinct_map distinct_str _,
      heldDistinct_map distinct_writeStrings _, heldDistinct_map distinct_str _, nofun⟩
  | audio kind prompt url =>
    refine distinct_heldFields (by simp) ?_
    simp only [List.forall_mem_cons]
    exact ⟨heldDistinct_some (distinct_str _), heldDistinct_some (distinct_str _),
      heldDistinct_map distinct_str _, nofun⟩
  | video prompt url =>
    refine distinct_heldFields (by simp) ?_
    simp only [List.forall_mem_cons]
    exact ⟨heldDistinct_some (distinct_str _), heldDistinct_map distinct_str _, nofun⟩
  | minigame prompt notes url =>
    have hnotes (vs : Mapping String) : Distinct 2 (.list (vs.toList.map variableNote)) := by
      refine .list fun v hv => ?_
      obtain ⟨p, -, rfl⟩ := List.mem_map.1 hv
      exact distinct_variableNote p
    refine distinct_heldFields (by simp) ?_
    simp only [List.forall_mem_cons]
    exact ⟨heldDistinct_some (distinct_str _), heldDistinct_map hnotes _,
      heldDistinct_map distinct_str _, nofun⟩

/-! ## Texts of their own -/

theorem topData_metadataEntries (g : Game) : TopData [] (asEntries (metadataEntries g)) where
  keys := (data_metadataEntries g).keys
  data := (data_metadataEntries g).values
  simple := List.forall_mem_nil _
  members := fun _ _ _ _ _ h => absurd h List.not_mem_nil
  room := (Nat.mul_le_mul_left 2 (distinct_metadataEntries g).depth_le).trans (by decide)

/-- The only list between brackets is that of the characters in a picture. -/
theorem topData_mediaFields (media : Generated) :
    TopData ["characters"] (asEntries (mediaFields media)) where
  keys := (data_mediaFields media).keys
  data := (data_mediaFields media).values
  simple := by decide
  members := by
    rintro e he k vs rfl hk v hv
    obtain rfl := List.mem_singleton.1 hk
    obtain ⟨⟨name, value⟩, hp, he⟩ := List.mem_map.1 he
    obtain ⟨rfl, rfl⟩ : name = "characters" ∧ value = .list vs := by simpa using he
    cases media with
    | image prompt character characters url =>
      obtain ⟨names, -, hnames⟩ : ∃ names, (characters.filter fun cs => !cs.isEmpty) = some names ∧
          writeStrings names = .list vs := by
        simpa [mediaFields, heldFields] using hp
      obtain rfl := Value.list.inj hnames
      obtain ⟨name, -, rfl⟩ := List.mem_map.1 hv
      exact ⟨name, rfl⟩
    | _ => simp [mediaFields, heldFields] at hp
  room := (Nat.mul_le_mul_left 2 (distinct_mediaFields media).depth_le).trans (by decide)

/-! ## Margins -/

section

open Text

theorem foldl_commonStart_nil (ms : List (List Char)) : ms.foldl commonStart [] = [] := by
  induction ms with
  | nil => rfl
  | cons m ms ih =>
    rw [List.foldl_cons, commonStart]
    · exact ih
    · nofun

/-- A text whose first line is not indented and whose lines are more than indentation has no
margin. -/
theorem dedent_eq_self {text : List Char} (hhead : ∀ c ∈ text.head?, isIndent c = false)
    (hlines : ∀ l ∈ lines text, l.all isIndent = false) : dedent text = text := by
  have hkept : (lines text).map (fun l => if l.all isIndent then [] else l) = lines text := by
    refine (List.map_congr_left fun l hl => ?_).trans (List.map_id _)
    rw [hlines l hl, if_neg Bool.false_ne_true]
    rfl
  obtain ⟨l, ls, hls⟩ := List.exists_cons_of_ne_nil (lines_ne_nil text)
  obtain ⟨c, r, rfl⟩ : ∃ c r, l = c :: r := by
    refine List.exists_cons_of_ne_nil ?_
    rintro rfl
    have hnil := hlines [] (by rw [hls]; exact List.mem_cons_self)
    cases hnil
  have hc : isIndent c = false := by
    refine hhead c ?_
    rw [← unlines_lines text, hls, unlines_cons]
    rfl
  have hmargin : margin (lines text) = [] := by
    rw [margin, hls, List.filter_cons_of_pos (by simp [hc]), List.map_cons,
      List.takeWhile_cons_of_neg (by simp [hc])]
    exact foldl_commonStart_nil _
  have hdrop : (lines text).map (fun l => if List.isPrefixOf [] l then l.drop 0 else l) =
      lines text := by
    simp
  rw [dedent, hkept, hmargin]
  exact (congrArg unlines hdrop).trans (unlines_lines text)

/-- A row names a key or begins with a mark. -/
theorem not_blank_of_row {l : List Char} (h : Yaml.Row l) : ¬Blank l := by
  obtain ⟨n, r, rfl, hbegins⟩ := h
  intro hblank
  have hmem {c : Char} (hc : c ∈ r) : isBlank c = true := hblank c (List.mem_append_right _ hc)
  rcases hbegins with h | ⟨t, rfl⟩ | ⟨t, rfl⟩
  · exact absurd (hmem h) (by decide)
  · exact absurd (hmem List.mem_cons_self) (by decide)
  · exact absurd (hmem List.mem_cons_self) (by decide)

/-- A written mapping has no margin. -/
theorem dedent_of_renderBody {inline : List String} {entries : List (Value × Value)}
    {text : List Char} (hne : entries ≠ []) (hdata : TopData inline entries)
    (h : Yaml.renderBody inline entries = .ok text) : dedent text = text := by
  have hstarts := Yaml.starts_of_renderBody hne hdata.isData h
  have hshown := Yaml.allShown_of_renderBody hne hdata.isData h
  refine dedent_eq_self (fun c hc => ?_) fun l hl => ?_
  · have hspace := ((Yaml.Scanner.lineLeads_top hne hdata h).start []).token c
      (by rwa [List.append_nil])
    have htab : c ≠ '\t' := by
      rintro rfl
      exact absurd (hshown _ (List.mem_of_head? hc)) (by decide)
    simp [isIndent, hspace.1, htab]
  · rw [Bool.eq_false_iff]
    intro hindent
    have hblank : Blank l := fun c hc => by
      have hc := List.all_eq_true.1 hindent c hc
      rw [isIndent, Bool.or_eq_true, beq_iff_eq, beq_iff_eq] at hc
      rcases hc with rfl | rfl <;> decide
    exact not_blank_of_row (hstarts.forall_row l hl) hblank

end

/-! ## Front matter and fences that last -/

theorem mediaFields_ne_nil (media : Generated) : asEntries (mediaFields media) ≠ [] := by
  cases media <;> exact List.cons_ne_nil _ _

/-- Front matter that lasts is loaded as it was written. -/
theorem exists_loadMetadata {g : Game} (h : Yaml.Lasting (asEntries (metadataEntries g))) :
    ∃ text, writeMetadata g = .ok text ∧
      loadMetadata (String.ofList text) = .ok (asEntries (metadataEntries g)) := by
  obtain ⟨text, htext, hload⟩ := Yaml.exists_load_of_lasting (metadataEntries_ne_nil g)
    (topData_metadataEntries g) (distinct_metadataEntries g) h
  refine ⟨text, htext, ?_⟩
  rw [loadMetadata, String.toList_ofList, hload]

/-- Fields that last are loaded as they were written. -/
theorem exists_loadBlock {media : Generated}
    (h : Yaml.Lasting (asEntries (mediaFields media))) :
    ∃ text, Yaml.renderBody ["characters"] (asEntries (mediaFields media)) = .ok text ∧
      ∀ fence place, loadBlock fence (String.ofList text) place =
        .ok (asEntries (mediaFields media)) := by
  obtain ⟨text, htext, hload⟩ := Yaml.exists_load_of_lasting (mediaFields_ne_nil media)
    (topData_mediaFields media) (distinct_mediaFields media) h
  refine ⟨text, htext, fun fence place => ?_⟩
  rw [loadBlock, String.toList_ofList,
    dedent_of_renderBody (mediaFields_ne_nil media) (topData_mediaFields media) htext, hload]

end Storyline.Script
