import Storyline.Proofs.Script.Compiled
import Storyline.Proofs.Script.Defects
import Storyline.Proofs.Script.Framing
import Storyline.Proofs.Yaml.Brackets

/-!
# What no rejection reports

A script that is no story is rejected with the reason, except for one kind of fault: data that mean
nothing, because a scalar in them is faulty, such as a date that is on no calendar, or because they
nest too deep, and a value that has no text. Such data stand in the front matter or in a fence, or it
is the value of a variable that a strict reading writes out, and exactly the texts in which this is
reached are not reported on.

## Main definitions

* `Block.Fatal`, `Stops`: a fence and blocks at which reading ends
* `Culprit`: where the value stands at which reading ends

## Main results

* `result_nodes_iff`, `raised_nodes_iff`: when blocks become nodes, and at which one this ends
* `parse_error_iff`: exactly the texts with a culprit are not reported on
* `parse_bracketed_iff`: how many brackets may be open in the front matter
-/

namespace Storyline

open Except Text

/-! ## Triggers -/

/-- Whether a trigger compares a variable whose value is too long to be written. -/
def InitialValue.unwritten (v : InitialValue) : Bool :=
  v.trigger?.isSome && (Value.ofScalar v.value).overlong

theorem fault?_display (value : Scalar) :
    (Operand.display (some value)).fault? = Value.lengthFault? (Value.ofScalar value).overlong := by
  cases value with
  | int n => exact Value.fault?_writeInt n
  | float x =>
    refine fault?_eq_none_iff.2 ?_
    rw [Operand.display]
    split
    · exact ⟨_, rfl⟩
    · exact ⟨_, rfl⟩
    · next htoInt => exact Number.exists_writeInt_of_toInt? htoInt
    · exact ⟨_, rfl⟩
  | _ => rfl

namespace Lint

/-- The check of a variable ends if its value is to be written and is too long. -/
theorem fault?_checkVariable (g : Game) (name : String) (v : InitialValue) :
    (checkVariable g name v).fault? = Value.lengthFault? v.unwritten := by
  cases htrigger : v.trigger? with
  | none =>
    rw [checkVariable, InitialValue.unwritten, htrigger]
    rfl
  | some t =>
    rw [checkVariable, InitialValue.unwritten, htrigger]
    exact (fault?_map _ _).trans ((fault?_map _ _).trans (fault?_display v.value))

theorem fault?_checkGame (g : Game) : (checkGame g).fault? =
    Value.lengthFault? ((Mapping.toList g.initialState).any fun p => p.2.unwritten) := by
  have hvalues : (checkGame g).fault? =
      ((Mapping.toList g.initialState).mapM fun p => checkVariable g p.1 p.2).fault? :=
    fault?_map _ _
  rw [hvalues, fault?_mapM]
  induction Mapping.toList g.initialState with
  | nil => rfl
  | cons p ps ih =>
    rw [List.findSome?_cons, List.any_cons, Value.lengthFault?_or, ← ih, fault?_checkVariable]
    cases Value.lengthFault? p.2.unwritten <;> rfl

end Lint

namespace Script

variable {d : Yaml.Defect}

/-! ## Blocks -/

/-- Why a block ends the reading: it is a fence whose content is no data, or in whose data a value
has no text. -/
inductive Block.Fatal (d : Yaml.Defect) (b : Block) : Prop where
  | data {name content : String} (hform : b.form = .fence name content)
    (h : Yaml.Meaningless (dedent content.toList) d)
  | text {name content : String} {data : List (Value × Value)}
    (hform : b.form = .fence name content)
    (hload : Yaml.load (dedent content.toList) = .ok (.map data))
    (h : raisedAfter (valueAt data "prompt") (mediaTexts name data) = some d)

/-- Whether a block is narration or becomes a node. -/
def Block.Clear (b : Block) : Prop :=
  (∃ url, b.form = .narration url) ∨ ∃ n, blockNode {} b = .ok n

/-- Whether the first of some blocks that is not clear ends the reading. -/
inductive Stops (d : Yaml.Defect) : List Block → Prop where
  | here {b : Block} {bs : List Block} (h : b.Fatal d) : Stops d (b :: bs)
  | later {b : Block} {bs : List Block} (hb : b.Clear) (h : Stops d bs) : Stops d (b :: bs)

/-! ### Places -/

section

variable {fence content : String} {place : Place} {data : List (Value × Value)}

theorem loadBlock_place (h : loadBlock fence content place = .ok data) (other : Place) :
    loadBlock fence content other = .ok data := by
  unfold loadBlock at h ⊢
  split at h <;> cases h <;> rfl

theorem readAudioKind_place {kind : AudioKind} (h : readAudioKind fence place data = .ok kind)
    (other : Place) : readAudioKind fence other data = .ok kind := by
  unfold readAudioKind at h ⊢
  dsimp only at h ⊢
  split at h
  · exact h
  · obtain ⟨shown, -, h⟩ := bind_eq_ok_iff.1 h
    cases h

theorem readMedia_place {media : Generated} (h : readMedia fence place data = .ok media)
    (other : Place) : readMedia fence other data = .ok media := by
  obtain ⟨shown, hshown, h⟩ := bind_eq_ok_iff.1 h
  refine bind_eq_ok_iff.2 ⟨shown, hshown, ?_⟩
  split at h
  · obtain ⟨url, hurl, h⟩ := bind_eq_ok_iff.1 h
    refine bind_eq_ok_iff.2 ⟨url, hurl, ?_⟩
    split at h
    · exact h
    · obtain ⟨kind, hkind, h⟩ := bind_eq_ok_iff.1 h
      exact bind_eq_ok_iff.2 ⟨kind, readAudioKind_place hkind other, h⟩
    · exact h
    · exact h
    · cases h
  · cases h

end

/-- The node of a block does not depend on the place that a fault would name. -/
theorem blockNode_place {b : Block} {n : Node Generated} {place : Place}
    (h : blockNode place b = .ok n) (other : Place) : blockNode other b = .ok n := by
  unfold blockNode at h ⊢
  split at h
  case h_6 =>
    obtain ⟨data, hdata, h⟩ := bind_eq_ok_iff.1 h
    obtain ⟨media, hmedia, h⟩ := bind_eq_ok_iff.1 h
    exact bind_eq_ok_iff.2
      ⟨data, loadBlock_place hdata other, bind_eq_ok_iff.2 ⟨media, readMedia_place hmedia other, h⟩⟩
  case h_7 => cases h
  case h_8 => cases h
  all_goals exact h

/-! ### Fences -/

theorem raised_loadBlock_bind {α : Type} {f : List (Value × Value) → Except Failure α}
    {defect? : List (Value × Value) → Option Yaml.Defect} (fence content : String) (place : Place)
    (hf : ∀ data, raised (f data) = defect? data) (hnil : defect? [] = none) :
    raised (loadBlock fence content place >>= f) =
      match Yaml.load (dedent content.toList) with
      | .ok (.map data) => defect? data
      | .error (.defect d) => some d
      | _ => none := by
  unfold loadBlock
  cases Yaml.load (dedent content.toList) with
  | error e => cases e <;> rfl
  | ok v =>
    cases v with
    | null => exact (hf []).trans hnil
    | map data => exact hf data
    | _ => rfl

theorem raised_blockNode_iff (place : Place) {b : Block} :
    raised (blockNode place b) = some d ↔ b.Fatal d := by
  obtain ⟨line, form⟩ := b
  cases form with
  | fence name content =>
    have hnode : raised (blockNode place ⟨line, .fence name content⟩) =
        match Yaml.load (dedent content.toList) with
        | .ok (.map data) => raisedAfter (valueAt data "prompt") (mediaTexts name data)
        | .error (.defect d) => some d
        | _ => none :=
      raised_loadBlock_bind name content place
        (fun data => (raised_map _ _).trans (raised_readMedia name place data)) rfl
    rw [hnode]
    constructor
    · intro h
      split at h
      · next data hload => exact .text rfl hload h
      · next hload =>
        cases h
        exact .data rfl (Yaml.load_error_iff.1 hload)
      · cases h
    · rintro (⟨hform, h⟩ | ⟨hform, hload, h⟩)
      · cases hform
        rw [Yaml.load_error_iff.2 h]
      · cases hform
        rw [hload]
        exact h
  | _ =>
    refine iff_of_false nofun ?_
    rintro (⟨hform, -⟩ | ⟨hform, -, -⟩) <;> cases hform

/-! ### Rows of blocks -/

theorem raised_exceptMap {α β : Type} (x : Except Failure α) (f : α → β) :
    raised (x.map f) = raised x := by
  cases x <;> rfl

theorem stops_append_iff {bs cs : List Block} :
    Stops d (bs ++ cs) ↔ Stops d bs ∨ (∀ b ∈ bs, b.Clear) ∧ Stops d cs := by
  induction bs with
  | nil => exact ⟨fun h => .inr ⟨List.forall_mem_nil _, h⟩, fun h => h.elim nofun And.right⟩
  | cons b bs ih =>
    constructor
    · intro h
      cases h with
      | here h => exact .inl (.here h)
      | later hb h =>
        exact (ih.1 h).imp (.later hb) fun ⟨hbs, hcs⟩ => ⟨List.forall_mem_cons.2 ⟨hb, hbs⟩, hcs⟩
    · rintro (h | ⟨h, hcs⟩)
      · cases h with
        | here h => exact .here h
        | later hb h => exact .later hb (ih.2 (.inl h))
      · obtain ⟨hb, hbs⟩ := List.forall_mem_cons.1 h
        exact .later hb (ih.2 (.inr ⟨hbs, hcs⟩))

theorem Block.Clear.not_fatal {b : Block} (h : b.Clear) : ¬ b.Fatal d := by
  rcases h with ⟨url, hform⟩ | ⟨n, hn⟩
  · rintro (⟨hform', -⟩ | ⟨hform', -, -⟩) <;> cases hform.symm.trans hform'
  · rw [← raised_blockNode_iff {}, hn]
    exact nofun

theorem stops_cons_iff {b : Block} {bs : List Block} (h : b.Clear) :
    Stops d (b :: bs) ↔ Stops d bs := by
  constructor
  · intro hstops
    cases hstops with
    | here hb => exact absurd hb h.not_fatal
    | later _ hbs => exact hbs
  · exact .later h

theorem stops_cons_iff_of_not_clear {b : Block} {bs : List Block} (h : ¬ b.Clear) :
    Stops d (b :: bs) ↔ b.Fatal d := by
  constructor
  · intro hstops
    cases hstops with
    | here hb => exact hb
    | later hb _ => exact absurd hb h
  · exact .here

section

variable {id : String} {index : Nat} {narration : Option String}

/-- Blocks become nodes exactly if all of them are clear. -/
theorem result_nodes_iff {bs : List Block} :
    (∃ ns, (nodes id index narration bs).result = .ok ns) ↔ ∀ b ∈ bs, b.Clear := by
  induction bs generalizing index narration with
  | nil => exact iff_of_true ⟨[], result_nodes_nil⟩ (List.forall_mem_nil _)
  | cons b bs ih =>
    rw [List.forall_mem_cons]
    rcases b.cases_narration with ⟨url, hform, -⟩ | ⟨hnone, ⟨content, hform⟩ | htext⟩
    · have hb : b.Clear := .inl ⟨url, hform⟩
      rw [result_nodes_narration hform, ih, and_iff_right hb]
    · have hb : b.Clear := .inr ⟨.text content none, by rw [blockNode, hform]⟩
      rw [result_nodes_text hform, exists_map_iff, ih, and_iff_right hb]
    · rw [result_nodes_other hnone htext]
      constructor
      · rintro ⟨ns, h⟩
        obtain ⟨n, hn, h⟩ := bind_eq_ok_iff.1 h
        exact ⟨.inr ⟨n, blockNode_place hn {}⟩, ih.1 (exists_map_iff.1 ⟨ns, h⟩)⟩
      · rintro ⟨⟨url, hform⟩ | ⟨n, hn⟩, hbs⟩
        · rw [Block.narration?, hform] at hnone
          cases hnone
        · exact exists_bind_of_eq (blockNode_place hn _) (exists_map_iff.2 (ih.2 hbs))

/-- The first block that is not clear decides whether blocks end the reading without a report. -/
theorem raised_nodes_iff {bs : List Block} :
    raised (nodes id index narration bs).result = some d ↔ Stops d bs := by
  induction bs generalizing index narration with
  | nil =>
    rw [result_nodes_nil]
    exact iff_of_false nofun nofun
  | cons b bs ih =>
    -- Narration waits for its text, a text is a node at once, and other blocks are looked into.
    rcases b.cases_narration with ⟨url, hform, -⟩ | ⟨hnone, ⟨content, hform⟩ | htext⟩
    · rw [result_nodes_narration hform, ih, stops_cons_iff (.inl ⟨url, hform⟩)]
    · have hb : b.Clear := .inr ⟨.text content none, by rw [blockNode, hform]⟩
      rw [result_nodes_text hform, raised_exceptMap, ih, stops_cons_iff hb]
    · rw [result_nodes_other hnone htext]
      cases hnode : blockNode { scene := id, node := index, line := b.line } b with
      | ok n =>
        have hb : b.Clear := .inr ⟨n, blockNode_place hnode {}⟩
        exact (congrArg (· = some d) (raised_exceptMap _ _)).to_iff.trans
          (ih.trans (stops_cons_iff hb).symm)
      | error e =>
        have hb : ¬ b.Clear := by
          rintro (⟨url, hform⟩ | ⟨n, hn⟩)
          · rw [Block.narration?, hform] at hnone
            cases hnone
          · rw [blockNode_place hn] at hnode
            cases hnode
        rw [stops_cons_iff_of_not_clear hb, ← raised_blockNode_iff _, hnode]
        rfl

end

/-! ### Scenes -/

variable {ds : List Draft} {scenes : Mapping (Scene Generated)}

/-- Two computations of which the second is not reported or is whatever the first gives. -/
theorem raised_bind_iff_or {α β : Type} {x : Except Failure α} {f : α → Except Failure β} {p : Prop}
    (hf : ∀ a, raised (f a) = some d ↔ p) :
    raised (x >>= f) = some d ↔ raised x = some d ∨ (∃ a, x = .ok a) ∧ p := by
  cases x with
  | ok a => exact (hf a).trans ((or_iff_right nofun).trans (and_iff_right ⟨a, rfl⟩)).symm
  | error e =>
    refine (or_iff_left ?_).symm
    rintro ⟨⟨a, ha⟩, -⟩
    cases ha

theorem result_addScene_iff {draft : Draft} :
    (∃ m, (addScene scenes draft).result = .ok m) ↔ ∀ b ∈ draft.blocks, b.Clear := by
  rw [result_addScene, exists_map_iff, result_scene, exists_map_iff, result_nodes_iff]

theorem raised_addScene_iff {draft : Draft} :
    raised (addScene scenes draft).result = some d ↔ Stops d draft.blocks := by
  rw [result_addScene, raised_exceptMap, result_scene, raised_exceptMap, raised_nodes_iff]

/-- Drafts become scenes exactly if all their blocks are clear. -/
theorem result_scenes_iff :
    (∃ m, (ds.foldlM addScene scenes).result = .ok m) ↔ ∀ b ∈ ds.flatMap Draft.blocks, b.Clear := by
  induction ds generalizing scenes with
  | nil => exact iff_of_true ⟨scenes, rfl⟩ (List.forall_mem_nil _)
  | cons draft ds ih =>
    rw [List.foldlM_cons, List.flatMap_cons, List.forall_mem_append, Logged.result_bind,
      exists_bind_iff_and fun m => ih, result_addScene_iff]

theorem raised_scenes_iff :
    raised (ds.foldlM addScene scenes).result = some d ↔ Stops d (ds.flatMap Draft.blocks) := by
  induction ds generalizing scenes with
  | nil => exact iff_of_false nofun nofun
  | cons draft ds ih =>
    rw [List.foldlM_cons, List.flatMap_cons, Logged.result_bind, raised_bind_iff_or fun m => ih,
      raised_addScene_iff, result_addScene_iff, stops_append_iff]

/-! ## Scripts -/

/-- Whether a text has these entries in its front matter and these blocks in its scenes. -/
def Outlined (source : String) (entries : List (Value × Value)) (blocks : List Block) : Prop :=
  ∃ p ds, split? source = some p ∧ Yaml.load p.metadata.toList = .ok (.map entries) ∧
    (drafts p.bodyLine p.body).result = .ok ds ∧ ds.flatMap Draft.blocks = blocks

/-- Where the value stands at which the reading of a text ends without a report. -/
inductive Culprit (strict : Bool) (source : String) (d : Yaml.Defect) : Prop where
  /-- The front matter is no data. -/
  | metadata {p : Parts} (hparts : split? source = some p)
    (h : Yaml.Meaningless p.metadata.toList d)
  /-- A fence is no data, or a value in it has no text. -/
  | fence {entries : List (Value × Value)} {blocks : List Block}
    (houtline : Outlined source entries blocks) (h : Stops d blocks)
  /-- A value in the front matter has no text. -/
  | text {entries : List (Value × Value)} {blocks : List Block}
    (houtline : Outlined source entries blocks) (hclear : ∀ b ∈ blocks, b.Clear)
    (h : raisedAfter (valueAt entries "title") ((metadataTexts entries).getD []) = some d)
  /-- A value that a trigger compares has no text. -/
  | trigger {g : Game} (hstrict : strict = true) (hgame : (parse false source).result = .ok (.ok g))
    (h : (Mapping.toList g.initialState).any (fun p => p.2.unwritten) = true)
    (hd : d = .number .tooLongToWrite)

theorem exists_rule_of_splitLines? {ls : List (List Char)} {p : Parts}
    (h : splitLines? ls = some p) : ∃ l ∈ ls, isRule l = true := by
  unfold splitLines? at h
  dsimp only at h
  split at h
  · cases h
  · next l rest hdrop =>
    have hmem : l ∈ ls := List.mem_of_mem_drop (hdrop ▸ List.mem_cons_self)
    split at h
    · next hrule => exact ⟨l, hmem, hrule⟩
    · cases h

/-- A text with front matter is not blank. -/
theorem not_blank_of_split? {source : String} {p : Parts} (h : split? source = some p) :
    ¬ allBlank source = true := by
  intro hblank
  obtain ⟨l, hl, hrule⟩ := exists_rule_of_splitLines? h
  have hdash : '-' ∈ trim l := by
    rw [eq_of_beq hrule]
    decide
  have hsource := mem_of_mem_normalizeBreaks (mem_of_mem_lines hl (mem_of_mem_trim hdash))
  have := List.all_eq_true.1 hblank '-' ((List.dropWhile_sublist _).subset hsource)
  revert this
  decide

section

variable {strict : Bool} {source : String} {entries : List (Value × Value)} {blocks : List Block}

theorem load_of_loadMetadata {text : String} :
    loadMetadata text = .error (.defect d) ↔ Yaml.load text.toList = .error (.defect d) := by
  unfold loadMetadata
  split
  all_goals simp_all [Failure.metadata]

theorem loadMetadata_eq_ok_iff {text : String} :
    loadMetadata text = .ok entries ↔ Yaml.load text.toList = .ok (.map entries) := by
  unfold loadMetadata
  split
  all_goals simp_all [Failure.metadata]

theorem result_parts {p : Parts} (h : split? source = some p) :
    (Logged.lift (parts source)).result = .ok p := by
  rw [Logged.result_lift, parts, h]

/-- Front matter that is no data ends the reading. -/
theorem raised_compile_of_load {p : Parts} (hparts : split? source = some p)
    (h : Yaml.load p.metadata.toList = .error (.defect d)) :
    raised (compile source).result = some d := by
  rw [raised_eq_some_iff, compile, Logged.result_bind_ok (result_parts hparts)]
  exact Logged.result_bind_error (load_of_loadMetadata.2 h) _

/-- A text with front matter and scenes is read up to the first block that is not clear, and if
there is none, up to the first value of the front matter without a text. -/
theorem raised_compile_iff (h : Outlined source entries blocks) :
    raised (compile source).result = some d ↔ Stops d blocks ∨ (∀ b ∈ blocks, b.Clear) ∧
      raisedAfter (valueAt entries "title") ((metadataTexts entries).getD []) = some d := by
  obtain ⟨p, ds, hparts, hload, hdrafts, rfl⟩ := h
  have hmetadata : (Logged.lift (loadMetadata p.metadata)).result = .ok entries :=
    loadMetadata_eq_ok_iff.2 hload
  have hds : ((drafts p.bodyLine p.body).mapError Failure.fault).result = .ok ds := by
    rw [Logged.mapError, hdrafts]
    rfl
  have hgame (scenes : Mapping (Scene Generated)) :
      raised (Logged.lift (readMetadata entries) >>= fun game =>
          (pure { game with scenes := scenes } : Logged Failure Game)).result = some d ↔
        raisedAfter (valueAt entries "title") ((metadataTexts entries).getD []) = some d := by
    rw [← raised_readMetadata, Logged.result_bind]
    exact (congrArg (· = some d) (raised_map _ _)).to_iff
  rw [compile, Logged.result_bind_ok (result_parts hparts), Logged.result_bind_ok hmetadata,
    Logged.result_bind_ok hds, Logged.result_bind, raised_bind_iff_or hgame, raised_scenes_iff,
    result_scenes_iff]

/-- What ends the reading of a text is one of its culprits. -/
theorem culprit_of_compile (h : (compile source).result = .error (.defect d)) :
    Culprit strict source d := by
  have hraised := raised_eq_some_iff.2 h
  rcases Logged.result_bind_eq_error h with h | ⟨p, hp, h⟩
  · rw [Logged.result_lift, parts] at h
    split at h <;> cases h
  have hparts : split? source = some p := split?_of_parts hp
  rcases Logged.result_bind_eq_error h with h | ⟨entries, hentries, h⟩
  · exact .metadata hparts (Yaml.load_error_iff.1 (load_of_loadMetadata.1 h))
  rcases Logged.result_bind_eq_error h with h | ⟨ds, hds, -⟩
  · -- Cutting the body into scenes looks at no value.
    obtain ⟨fault, -, he⟩ := Logged.result_mapError_eq_error h
    cases he
  have houtline : Outlined source entries (ds.flatMap Draft.blocks) :=
    ⟨p, ds, hparts, loadMetadata_eq_ok_iff.1 hentries, Logged.result_mapError_eq_ok hds, rfl⟩
  rcases (raised_compile_iff houtline).1 hraised with h | ⟨hclear, h⟩
  · exact .fence houtline h
  · exact .text houtline hclear h

/-- What ends the compiling of a text with front matter ends its reading. -/
theorem parse_of_raised {p : Parts} (hparts : split? source = some p)
    (h : raised (compile source).result = some d) : (parse strict source).result = .error d := by
  unfold parse
  rw [if_neg (not_blank_of_split? hparts)]
  dsimp only
  rw [raised_eq_some_iff.1 h]

/-- A strict reading of a story ends if the check of the story does. -/
theorem parse_of_checkGame {g : Game} {f : NumberFault}
    (hgame : (parse false source).result = .ok (.ok g)) (h : Lint.checkGame g = .error f) :
    (parse true source).result = .error (.number f) := by
  have hcompile := compile_of_parse hgame
  unfold parse at hgame ⊢
  split at hgame
  · cases hgame
  · next hblank =>
    rw [if_neg hblank]
    dsimp only
    rw [hcompile]
    dsimp only
    rw [h]
    rfl

/-- **Exactly the texts with a culprit are not reported on**, and the culprit says why. -/
theorem parse_error_iff : (parse strict source).result = .error d ↔ Culprit strict source d := by
  constructor
  · intro h
    unfold parse at h
    split at h
    · cases h
    · next hblank =>
      dsimp only at h
      split at h
      · cases h
      · cases h
      · next hcompile =>
        cases h
        exact culprit_of_compile hcompile
      · next g hcompile =>
        split at h
        · cases h
        · next hstrict =>
          split at h
          · -- The check writes out the values that triggers compare, and only that can end it.
            next f hcheck =>
            cases h
            have hgame := parse_of_compile (Bool.eq_false_iff.2 hblank) hcompile
            have hfault := fault?_eq_some_iff.2 hcheck
            rw [Lint.fault?_checkGame, Value.lengthFault?] at hfault
            split at hfault
            · next hany =>
              cases hfault
              exact .trigger (by simpa using hstrict) hgame hany rfl
            · cases hfault
          · cases h
  · rintro (⟨hparts, h⟩ | ⟨houtline, h⟩ | ⟨houtline, hclear, h⟩ | ⟨rfl, hgame, h, rfl⟩)
    · exact parse_of_raised hparts (raised_compile_of_load hparts (Yaml.load_error_iff.2 h))
    · obtain ⟨p, ds, hparts, -⟩ := id houtline
      exact parse_of_raised hparts ((raised_compile_iff houtline).2 (.inl h))
    · obtain ⟨p, ds, hparts, -⟩ := id houtline
      exact parse_of_raised hparts ((raised_compile_iff houtline).2 (.inr ⟨hclear, h⟩))
    · refine parse_of_checkGame hgame (fault?_eq_some_iff.1 ?_)
      rw [Lint.fault?_checkGame, h]
      rfl

end

/-! ## Brackets -/

/-- A text with `n` opening brackets for front matter. -/
def bracketed (n : Nat) : String :=
  String.ofList (framed (List.replicate n '['))

theorem exists_split?_bracketed (n : Nat) :
    ∃ p, split? (bracketed n) = some p ∧ p.metadata = String.ofList (List.replicate n '[') := by
  have hmem {c : Char} (hc : c ≠ '[') : c ∉ List.replicate n '[' :=
    fun h => hc (List.eq_of_mem_replicate h)
  have hrule : ∀ l ∈ lines (List.replicate n '['), isRule l = false := by
    rw [lines_eq_singleton (hmem (by decide))]
    refine List.forall_mem_singleton.2 (beq_false_of_ne fun h => ?_)
    have hdash : '-' ∈ trim (List.replicate n '[') := by
      rw [h]
      decide
    exact hmem (by decide) (mem_of_mem_trim hdash)
  obtain ⟨p, -, hparts, hmetadata, -⟩ := split?_framed (hmem (by decide)) hrule (.inl rfl)
  rw [List.append_nil] at hparts
  exact ⟨p, hparts, hmetadata⟩

/-- Brackets in the front matter are too many exactly beyond the room for collections. -/
theorem parse_bracketed_iff {strict : Bool} {n : Nat} :
    (parse strict (bracketed n)).result = .error .recursion ↔ Yaml.callRoom < 2 * n := by
  obtain ⟨p, hparts, hmetadata⟩ := exists_split?_bracketed n
  have hbrackets : p.metadata.toList = List.replicate n '[' := by
    rw [hmetadata, String.toList_ofList]
  rw [← Yaml.load_brackets_iff, ← hbrackets, parse_error_iff]
  -- Brackets are never data, so that nothing after the front matter is looked at.
  have hnoMap {entries : List (Value × Value)} {blocks : List Block} :
      ¬ Outlined (bracketed n) entries blocks := by
    rintro ⟨q, ds, hq, hload, -⟩
    cases hparts.symm.trans hq
    rw [hbrackets] at hload
    exact Yaml.load_brackets_ne_map n entries hload
  constructor
  · rintro (⟨hq, h⟩ | ⟨houtline, -⟩ | ⟨houtline, -, -⟩ | ⟨-, -, -, hd⟩)
    · cases hparts.symm.trans hq
      exact Yaml.load_error_iff.2 h
    · exact absurd houtline hnoMap
    · exact absurd houtline hnoMap
    · cases hd
  · exact fun h => .metadata hparts (Yaml.load_error_iff.1 h)

end Script

end Storyline
