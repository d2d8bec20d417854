import Storyline.Proofs.Mapping
import Storyline.Proofs.Script.Canonical.Media
import Storyline.Proofs.Script.Canonical.Metadata
import Storyline.Proofs.Script.Reread

/-!
# What the data of stories are read back as

The front matter of a story, written and read back, is the front matter of some story, and so it is
with the fields of generated media. Hence a story that has come back the same from its own front
matter has lost nothing in it.

## Main definitions

* `Rereads`: a way to write that is closed under reading back

## Main results

* `filled_rereadChars`: reading back neither empties a text nor leaves blanks at its ends
* `exists_reread_metadataEntries`: front matter is read back as front matter
* `lasting_metadataEntries`, `lasting_mediaFields`: what has come back the same lasts
-/

namespace Storyline

open Text

/-- Pairs of which none takes the place of another are kept as they are. -/
theorem Mapping.toList_ofList_of_length {α : Type} {ps : List (String × α)}
    (h : (ofList ps).toList.length = ps.length) : (ofList ps).toList = ps := by
  have hsubset : (ofList ps).keys ⊆ ps.map Prod.fst := by
    intro k hk
    obtain ⟨v, hv⟩ := exists_get?_of_mem_keys hk
    exact List.mem_map_of_mem (mem_of_get?_ofList hv)
  have hperm := (List.subperm_of_subset (ofList ps).nodup hsubset).perm_of_length_le
    (by rw [List.length_map, List.length_map, h])
  exact toList_ofList (hperm.nodup_iff.1 (ofList ps).nodup)

namespace Yaml

open Script (asEntries heldFields sublist_map_fst_heldFields)

/-! ## Texts that are read back -/

theorem isBlank_of_isWrittenBreak {c : Char} (h : isWrittenBreak c = true) :
    isBlank c = true ∧ isBlank (lineEnd c) = true := by
  rcases isWrittenBreak_cases h with rfl | rfl | rfl | rfl <;> decide

/-- Folding changes blanks only. -/
theorem blank_foldBreaks {s : List Char} (inside : Bool) :
    Blank (foldBreaks inside s) ↔ Blank s := by
  induction s generalizing inside with
  | nil => rfl
  | cons c s ih =>
    have hcons {d : Char} {t : List Char} : Blank (d :: t) ↔ isBlank d = true ∧ Blank t :=
      List.forall_mem_cons
    rw [foldBreaks]
    split
    · next hbreak =>
      obtain ⟨hc, hend⟩ := isBlank_of_isWrittenBreak hbreak
      split
      · rw [hcons, hcons, ih, hc, hend]
      · split
        · rw [hcons, ih, hc, eq_self, true_and]
        · rw [hcons, hcons, ih, hc]
          exact and_congr_left fun _ => by decide
    · rw [hcons, hcons, ih]

theorem foldBreaks_concat (s : List Char) {d : Char} (hd : isWrittenBreak d = false)
    (inside : Bool) : ∃ t, foldBreaks inside (s ++ [d]) = t ++ [d] := by
  induction s generalizing inside with
  | nil => exact ⟨[], by rw [List.nil_append, foldBreaks, hd, if_neg Bool.false_ne_true]; rfl⟩
  | cons c s ih =>
    rw [List.cons_append, foldBreaks]
    split
    · obtain ⟨t, ht⟩ := ih true
      split
      · exact ⟨lineEnd c :: t, by rw [ht]; rfl⟩
      · split
        · exact ⟨t, ht⟩
        · exact ⟨' ' :: t, by rw [ht]; rfl⟩
    · obtain ⟨t, ht⟩ := ih false
      exact ⟨c :: t, by rw [ht]; rfl⟩

theorem not_isWrittenBreak {c : Char} (h : isBlank c = false) : isWrittenBreak c = false := by
  rw [Bool.eq_false_iff]
  intro hbreak
  rw [(isBlank_of_isWrittenBreak hbreak).1] at h
  cases h

/-- Reading back neither empties a text nor leaves blanks at its ends. -/
theorem filled_rereadChars {s : List Char} (h : Filled s) : Filled (rereadChars s) := by
  obtain ⟨hhead, hlast⟩ := trim_eq_self_iff.1 h.2
  rw [rereadChars]
  split
  · refine ⟨fun hnil => ?_, trim_eq_self_iff.2 ⟨?_, ?_⟩⟩
    · have hblank : Blank (foldBreaks false s) := by
        rw [hnil]
        exact List.forall_mem_nil _
      exact h.not_blank ((blank_foldBreaks false).1 hblank)
    · obtain ⟨c, r, rfl⟩ := List.exists_cons_of_ne_nil h.1
      rw [foldBreaks, not_isWrittenBreak (hhead c rfl), if_neg Bool.false_ne_true]
      exact hhead
    · obtain ⟨r, d, rfl⟩ := List.eq_nil_or_concat s |>.resolve_left h.1
      rw [List.concat_eq_append] at hlast ⊢
      have hd := hlast d List.getLast?_concat
      obtain ⟨t, ht⟩ := foldBreaks_concat r (not_isWrittenBreak hd) false
      rw [ht, List.getLast?_concat]
      rintro c ⟨⟩
      exact hd
  · exact h

theorem allBlank_rereadString (s : String) : allBlank (rereadString s) = allBlank s := by
  rw [Bool.eq_iff_iff, allBlank, allBlank, List.all_eq_true, List.all_eq_true, rereadString,
    String.toList_ofList, rereadChars]
  split
  · exact blank_foldBreaks false
  · rfl

/-! ## Ways to write -/

/-- Whether what is written in some way is read back as what is written in that way for something
else. -/
def Rereads {α : Type} (write : α → Value) : Prop :=
  ∀ a, ∃ b, reread (write a) = write b

section

variable {α : Type} {write : α → Value}

theorem rereads_str : Rereads Value.str :=
  fun s => ⟨rereadString s, rfl⟩

theorem Rereads.option (h : Rereads write) (o : Option α) :
    ∃ o' : Option α, (o.map write).map reread = o'.map write := by
  cases o with
  | none => exact ⟨none, rfl⟩
  | some a =>
    obtain ⟨b, hb⟩ := h a
    exact ⟨some b, congrArg some hb⟩

/-! ## Mappings -/

theorem insertEntry_asEntries (k : String) (v : Value) (ps : List (String × Value)) :
    Value.insertEntry (.str k) v (asEntries ps) = asEntries (insertPair k v ps) := by
  induction ps with
  | nil => rfl
  | cons p ps ih =>
    by_cases hk : p.1 = k
    · have hsame : (Value.str p.1).sameKey (.str k) = true := beq_iff_eq.2 hk
      rw [insertPair, if_pos hk, asEntries, List.map_cons, Value.insertEntry, hsame, if_pos rfl, hk]
      rfl
    · have hother : (Value.str p.1).sameKey (.str k) = false := beq_false_of_ne hk
      rw [insertPair, if_neg hk, asEntries, List.map_cons, Value.insertEntry, hother,
        if_neg Bool.false_ne_true]
      exact congrArg _ ih

/-- Of two entries with one name the last counts, as in a mapping of pairs. -/
theorem collect_asEntries (ps : List (String × Value)) :
    collect (asEntries ps) = asEntries (Mapping.ofList ps).toList := by
  have key (m : Mapping Value) :
      (asEntries ps).foldl (fun es e => Value.insertEntry e.1 e.2 es) (asEntries m.toList) =
        asEntries (ps.foldl (fun m p => m.insert p.1 p.2) m).toList := by
    induction ps generalizing m with
    | nil => rfl
    | cons p ps ih =>
      rw [List.foldl_cons, ← ih, Mapping.toList_insert, ← insertEntry_asEntries]
      rfl
  exact key Mapping.empty

theorem insertPair_map (k : String) (a : α) (ps : List (String × α)) :
    insertPair k (write a) (ps.map fun p => (p.1, write p.2)) =
      (insertPair k a ps).map fun p => (p.1, write p.2) := by
  induction ps with
  | nil => rfl
  | cons p ps ih =>
    by_cases hk : p.1 = k
    · rw [List.map_cons, insertPair, insertPair, if_pos hk, if_pos hk, List.map_cons]
    · rw [List.map_cons, insertPair, insertPair, if_neg hk, if_neg hk, List.map_cons, ih]

theorem ofList_map (ps : List (String × α)) :
    Mapping.ofList (ps.map fun p => (p.1, write p.2)) = (Mapping.ofList ps).map write := by
  have key (m : Mapping α) :
      (ps.map fun p => (p.1, write p.2)).foldl (fun m p => m.insert p.1 p.2) (m.map write) =
        (ps.foldl (fun m p => m.insert p.1 p.2) m).map write := by
    induction ps generalizing m with
    | nil => rfl
    | cons p ps ih =>
      have hinsert : (m.map write).insert p.1 (write p.2) = (m.insert p.1 p.2).map write :=
        Mapping.ext_toList (insertPair_map p.1 p.2 m.toList)
      rw [List.map_cons, List.foldl_cons, List.foldl_cons, hinsert, ih]
  exact key Mapping.empty

/-- A mapping is read back as a mapping, which is not empty if the first is not. -/
theorem Rereads.mapping (h : Rereads write) (m : Mapping α) :
    ∃ m' : Mapping α, reread (Value.ofMapping write m) = Value.ofMapping write m' ∧
      (m.isEmpty = false → m'.isEmpty = false) := by
  choose f hf using h
  have hentries : rereadEntries (asEntries (m.toList.map fun p => (p.1, write p.2))) =
      asEntries ((m.toList.map fun p => (rereadString p.1, f p.2)).map
        fun p => (p.1, write p.2)) := by
    rw [rereadEntries_eq_map, asEntries, asEntries, List.map_map, List.map_map, List.map_map,
      List.map_map]
    refine List.map_congr_left fun p _ => ?_
    show (Value.str (rereadString p.1), reread (write p.2)) = _
    rw [hf]
    rfl
  refine ⟨Mapping.ofList (m.toList.map fun p => (rereadString p.1, f p.2)), ?_, fun hm => ?_⟩
  · show reread (.map (asEntries _)) = .map (asEntries _)
    rw [reread, hentries, collect_asEntries, ofList_map]
    rfl
  · refine Mapping.isEmpty_ofList fun hnil => ?_
    rw [Mapping.isEmpty, List.map_eq_nil_iff.1 hnil] at hm
    cases hm

end

/-! ## Records -/

/-- The fields of a record are read back one by one, if its names are plain. -/
theorem reread_heldFields {fields : List (String × Option Value)}
    (hnodup : (fields.map Prod.fst).Nodup) (hnames : ∀ k ∈ fields.map Prod.fst, Survives k) :
    reread (.map (asEntries (heldFields fields))) =
      .map (asEntries (heldFields (fields.map fun p => (p.1, p.2.map reread)))) := by
  have hheld : rereadEntries (asEntries (heldFields fields)) =
      asEntries (heldFields (fields.map fun p => (p.1, p.2.map reread))) := by
    clear hnodup
    induction fields with
    | nil => rfl
    | cons p fields ih =>
      obtain ⟨name, value⟩ := p
      obtain ⟨hname, hrest⟩ := List.forall_mem_cons.1 hnames
      cases value with
      | none => exact ih hrest
      | some v =>
        show (Value.str (rereadString name), reread v) :: rereadEntries _ = _
        rw [rereadString_eq_self_iff.2 hname]
        exact congrArg _ (ih hrest)
  have hkept : (asEntries (heldFields (fields.map fun p => (p.1, p.2.map reread)))).map Prod.fst =
      (heldFields (fields.map fun p => (p.1, p.2.map reread))).map (Value.str ∘ Prod.fst) := by
    rw [asEntries, List.map_map]
    rfl
  rw [reread, hheld, collect_of_nodup]
  · intro e he
    obtain ⟨p, -, rfl⟩ := List.mem_map.1 he
    exact ⟨p.1, rfl⟩
  · rw [hkept, ← List.map_map]
    refine List.Nodup.map (fun _ _ he => Value.str.inj he) ?_
    refine List.Nodup.sublist (sublist_map_fst_heldFields _) ?_
    rw [List.map_map]
    exact hnodup

open Schema (writeStrings writeNumber writeTrigger writeVariableInfo writeInitialValue
  writeCharacter)

theorem rereads_ofScalar : Rereads Value.ofScalar := by
  intro s
  cases s with
  | str s => exact ⟨.str (rereadString s), rfl⟩
  | bool b => exact ⟨.bool b, rfl⟩
  | int n => exact ⟨.int n, rfl⟩
  | float x => exact ⟨.float x, rfl⟩

theorem reread_writeNumber (n : Number) : reread (writeNumber n) = writeNumber n := by
  cases n <;> rfl

theorem reread_writeStrings (ss : List String) :
    reread (writeStrings ss) = writeStrings (ss.map rereadString) := by
  rw [writeStrings, reread, rereadItems_eq_map, List.map_map, writeStrings, List.map_map]
  rfl

theorem map_reread_eq {α : Type} {write : α → Value} (h : ∀ a, reread (write a) = write a)
    (o : Option α) : (o.map write).map reread = o.map write := by
  cases o with
  | none => rfl
  | some a => exact congrArg some (h a)

theorem map_reread_str (o : Option String) :
    (o.map Value.str).map reread = (o.map rereadString).map Value.str := by
  cases o <;> rfl

theorem rereads_writeTrigger : Rereads writeTrigger := by
  intro t
  refine ⟨{ condition := rereadString t.condition, scene := rereadString t.scene }, ?_⟩
  refine (@reread_heldFields [("condition", some (.str t.condition)),
    ("scene", some (.str t.scene))] (by simp) ?_).trans rfl
  show ∀ k ∈ ["condition", "scene"], Survives k
  decide +kernel

theorem reread_displayName (d : Display) : reread (.str d.name) = .str d.name := by
  rw [reread, Value.str.injEq, rereadString_eq_self_iff]
  cases d <;> decide +kernel

theorem rereads_writeVariableInfo : Rereads writeVariableInfo := by
  intro i
  obtain ⟨value, hvalue⟩ := rereads_ofScalar i.value
  obtain ⟨trigger, htrigger⟩ := rereads_writeTrigger.option i.trigger
  refine ⟨{ i with value := value, label := i.label.map rereadString,
                   icon := i.icon.map rereadString, trigger := trigger }, ?_⟩
  show reread (.map (asEntries (heldFields _))) = .map (asEntries (heldFields _))
  refine (reread_heldFields (by simp) ?_).trans ?_
  · show ∀ k ∈ ["value", "visible", "display", "max", "label", "icon", "trigger"], Survives k
    decide +kernel
  · have hvisible := @map_reread_eq _ Value.bool (fun _ => rfl) i.visible
    simp only [List.map_cons, List.map_nil, Option.map_some, hvalue, hvisible,
      map_reread_eq reread_displayName, map_reread_eq reread_writeNumber, htrigger,
      Schema.writeString?, map_reread_str]

theorem rereads_writeInitialValue : Rereads writeInitialValue := by
  intro v
  cases v with
  | plain s =>
    obtain ⟨s', hs'⟩ := rereads_ofScalar s
    exact ⟨.plain s', hs'⟩
  | described i =>
    obtain ⟨i', hi'⟩ := rereads_writeVariableInfo i
    exact ⟨.described i', hi'⟩

theorem rereads_writeCharacter : Rereads writeCharacter := by
  intro c
  refine ⟨{ name := rereadString c.name, description := c.description.map rereadString,
            imagePrompt := c.imagePrompt.map rereadString,
            imageUrl := c.imageUrl.map rereadString,
            voiceName := c.voiceName.map rereadString }, ?_⟩
  show reread (.map (asEntries (heldFields _))) = .map (asEntries (heldFields _))
  refine (reread_heldFields (by simp) ?_).trans ?_
  · show ∀ k ∈ ["name", "description", "image_prompt", "image_url", "voice_name"], Survives k
    decide +kernel
  · simp only [List.map_cons, List.map_nil, Option.map_some, Schema.writeString?, map_reread_str,
      reread]

end Yaml

namespace Script

open Yaml (reread rereadString Rereads Survives)

/-! ## Front matter -/

theorem shows_map_rereadString {o : Option String} (h : Shows o) : Shows (o.map rereadString) := by
  cases o with
  | none => exact h
  | some t =>
    rintro _ ⟨⟩
    rw [Yaml.allBlank_rereadString]
    exact h t rfl

/-- A mapping that may be missing is read back, and not emptied. -/
theorem exists_reread_held {α : Type} {write : α → Value} (hwrite : Rereads write)
    {o : Option (Mapping α)} (h : Holds o) : ∃ o' : Option (Mapping α), Holds o' ∧
      (o.map (Value.ofMapping write)).map reread = o'.map (Value.ofMapping write) := by
  cases o with
  | none => exact ⟨none, holds_none, rfl⟩
  | some m =>
    obtain ⟨m', hm', hempty⟩ := hwrite.mapping m
    refine ⟨some m', ?_, congrArg some hm'⟩
    rintro _ ⟨⟩
    exact hempty (h m rfl)

theorem map_reread_nonEmptyRecord? {fields : List (String × Option Value)}
    (hnodup : (fields.map Prod.fst).Nodup) (hnames : ∀ k ∈ fields.map Prod.fst, Survives k) :
    (nonEmptyRecord? fields).map reread =
      nonEmptyRecord? (fields.map fun p => (p.1, p.2.map reread)) := by
  have hempty : (heldFields (fields.map fun p => (p.1, p.2.map reread))).isEmpty =
      (heldFields fields).isEmpty := by
    rw [heldFields, heldFields, List.filterMap_map, Bool.eq_iff_iff, List.isEmpty_iff,
      List.isEmpty_iff, List.filterMap_eq_nil_iff, List.filterMap_eq_nil_iff]
    simp
  rw [nonEmptyRecord?, nonEmptyRecord?, hempty]
  split
  · rfl
  · exact congrArg some (Yaml.reread_heldFields hnodup hnames)

theorem map_reread_tags (tags : List String) :
    (if tags.isEmpty then none else some (Schema.writeStrings tags)).map reread =
      if (tags.map rereadString).isEmpty then none
      else some (Schema.writeStrings (tags.map rereadString)) := by
  rw [List.isEmpty_map]
  split
  · rfl
  · exact congrArg some (Yaml.reread_writeStrings tags)

/-- The front matter of a story is read back as that of a story. -/
theorem exists_reread_metadataEntries {g : Game} (h : (Heading.ofGame g).Shown) :
    ∃ g' : Game, (Heading.ofGame g').Shown ∧
      reread (.map (asEntries (metadataEntries g))) = .map (asEntries (metadataEntries g')) := by
  have hstate : Holds (nonEmpty? (some g.initialState)) := by
    intro m hm
    simpa using (Option.filter_eq_some_iff.1 hm).2
  obtain ⟨state, hstate, hvariables⟩ := exists_reread_held Yaml.rereads_writeInitialValue hstate
  obtain ⟨style, hstyle, hstyles⟩ :=
    exists_reread_held (o := g.making.style) Yaml.rereads_str h.style
  obtain ⟨characters, hcharacters, hcast⟩ :=
    exists_reread_held Yaml.rereads_writeCharacter (holds_map_iff.1 h.characters)
  let g' : Game :=
    { g with
      title := rereadString g.title, description := g.description.map rereadString
      background := g.background.map rereadString, coverImage := g.coverImage.map rereadString
      coverPrompt := g.coverPrompt.map rereadString
      coverAspectRatio := g.coverAspectRatio.map rereadString, tags := g.tags.map rereadString
      slug := g.slug.map rereadString, initialState := state.getD Mapping.empty
      making := { style := style, characters := characters } }
  have hnamed : nonEmpty? (some (state.getD Mapping.empty)) = state := by
    cases state with
    | none => rfl
    | some m => exact nonEmpty?_eq_self hstate
  have hshown : (Heading.ofGame g').Shown := {
    title := (Yaml.allBlank_rereadString g.title).trans h.title
    description := shows_map_rereadString h.description
    background := shows_map_rereadString h.background
    coverImage := shows_map_rereadString h.coverImage
    coverPrompt := shows_map_rereadString h.coverPrompt
    coverAspectRatio := shows_map_rereadString h.coverAspectRatio
    slug := shows_map_rereadString h.slug
    style := hstyle
    characters := holds_map_iff.2 hcharacters }
  refine ⟨g', hshown, ?_⟩
  rw [metadataEntries_eq h, metadataEntries_eq hshown, Yaml.reread_heldFields nodup_metadataFields]
  · have hmaking : (nonEmptyRecord? (makingFields g.making)).map reread =
        nonEmptyRecord? (makingFields g'.making) := by
      rw [@map_reread_nonEmptyRecord? (makingFields g.making) (by simp [makingFields])
        (show ∀ k ∈ ["style", "characters"], Survives k by decide +kernel)]
      simp only [makingFields, List.map_cons, List.map_nil, hstyles, hcast, g']
    have hpublished : (if g.published then some (Value.bool true) else none).map reread =
        if g.published then some (Value.bool true) else none := by
      cases g.published <;> rfl
    simp only [metadataFields, List.map_cons, List.map_nil, Option.map_some, Yaml.map_reread_str,
      map_reread_tags, hpublished, hvariables, hmaking, hnamed, reread, g']
  · show ∀ k ∈ ["title", "description", "backgroundStory", "cover_image", "cover_prompt",
      "cover_aspect_ratio", "tags", "published", "slug", "state", "ai"], Survives k
    decide +kernel

/-- A story that has come back the same from its own front matter has lost nothing in it. -/
theorem reread_metadataEntries_of_readMetadata {g told : Game} {entries : List (Value × Value)}
    (h : (Heading.ofGame g).Shown)
    (hentries : reread (.map (asEntries (metadataEntries g))) = .map entries)
    (htold : readMetadata entries = .ok told) (hsame : g = { told with scenes := g.scenes }) :
    reread (.map (asEntries (metadataEntries g))) = .map (asEntries (metadataEntries g)) := by
  obtain ⟨g', hshown, hreread⟩ := exists_reread_metadataEntries h
  rw [hreread] at hentries
  obtain rfl := Value.map.inj hentries
  rw [readMetadata_metadataEntries hshown] at htold
  obtain rfl := Except.ok.inj htold
  rw [hreread, hsame]
  rfl

/-! ## Generated media -/

theorem reread_kindName (kind : AudioKind) : rereadString kind.name = kind.name := by
  rw [Yaml.rereadString_eq_self_iff]
  cases kind <;> decide +kernel

theorem filled_rereadString {s : String} (h : Filled s.toList) :
    Filled (rereadString s).toList := by
  rw [rereadString, String.toList_ofList]
  exact Yaml.filled_rereadChars h

theorem reread_characters {names : Option (List String)}
    (h : ∀ ns ∈ names, ns ≠ [] ∧ ∀ n ∈ ns, Filled n.toList) :
    ((names.filter fun ns => !ns.isEmpty).map Schema.writeStrings).map reread =
        ((names.map (List.map rereadString)).filter fun ns => !ns.isEmpty).map
          Schema.writeStrings ∧
      ∀ ns ∈ names.map (List.map rereadString), ns ≠ [] ∧ ∀ n ∈ ns, Filled n.toList := by
  cases names with
  | none =>
    refine ⟨rfl, ?_⟩
    rintro _ ⟨⟩
  | some ns =>
    obtain ⟨hne, hfilled⟩ := h ns rfl
    have hempty : ns.isEmpty = false := List.isEmpty_eq_false_iff.2 hne
    refine ⟨?_, ?_⟩
    · rw [Option.map_some, Option.filter_some, Option.filter_some, List.isEmpty_map, hempty]
      exact congrArg some (Yaml.reread_writeStrings ns)
    · rintro _ ⟨⟩
      refine ⟨fun hnil => hne (List.map_eq_nil_iff.1 hnil), fun n hn => ?_⟩
      obtain ⟨m, hm, rfl⟩ := List.mem_map.1 hn
      exact filled_rereadString (hfilled m hm)

/-- Names of variables that became the same are one variable when they are read, so there would be
fewer than before. -/
theorem reread_notes {notes : Mapping String}
    (hread : variableNotes (reread (.list (notes.toList.map variableNote))) = .ok (some notes)) :
    reread (.list (notes.toList.map variableNote)) = .list (notes.toList.map variableNote) := by
  have hreread : reread (.list (notes.toList.map variableNote)) = .list
      ((notes.toList.map fun p => (rereadString p.1, rereadString p.2)).map variableNote) := by
    rw [reread, Yaml.rereadItems_eq_map, List.map_map, List.map_map]
    rfl
  rw [hreread, variableNotes_pairs] at hread
  have hsame := (Option.filter_eq_some_iff.1 (Except.ok.inj hread)).1
  have hpairs := @Mapping.toList_ofList_of_length _
    (notes.toList.map fun p => (rereadString p.1, rereadString p.2))
    (by rw [Option.some.inj hsame, List.length_map])
  rw [hreread, ← hpairs, Option.some.inj hsame]

theorem reread_minigame {prompt : String} {notes : Option (Mapping String)} {url : Option String}
    {entries : List (Value × Value)} {place : Place}
    (h : (Generated.minigame prompt notes url).Normal)
    (hentries : reread (.map (asEntries (mediaFields (.minigame prompt notes url)))) = .map entries)
    (hread : readMedia "minigame-gen" place entries = .ok (.minigame prompt notes url)) :
    reread (.map (asEntries (mediaFields (.minigame prompt notes url)))) =
      .map (asEntries (mediaFields (.minigame prompt notes url))) := by
  have hfields : reread (.map (asEntries (mediaFields (.minigame prompt notes url)))) =
      .map (asEntries (heldFields [("prompt", some (.str (rereadString prompt))),
        ("variables", ((nonEmpty? notes).map fun vs =>
          .list (vs.toList.map variableNote)).map reread),
        ("url", (url.map rereadString).map Value.str)])) := by
    refine (Yaml.reread_heldFields (by simp) ?_).trans ?_
    · show ∀ k ∈ ["prompt", "variables", "url"], Survives k
      decide +kernel
    · simp only [List.map_cons, List.map_nil, Option.map_some, Yaml.map_reread_str, reread]
  rw [hfields] at hentries
  obtain rfl := Value.map.inj hentries
  rw [readMedia_fields (rereadString prompt) (url.map rereadString) (filled_rereadString h.1)
    (by simp) (by simp) (by simp)] at hread
  rw [valueAt_heldFields (by simp) (.tail _ (.head _))] at hread
  obtain ⟨found, hfound, hread⟩ := Except.bind_eq_ok_iff.1 hread
  obtain ⟨hprompt, rfl, hurl⟩ : rereadString prompt = prompt ∧ found = notes ∧
      url.map rereadString = url := by
    simpa using Except.ok.inj hread
  have hnotes :
      ((nonEmpty? found).map fun vs => Value.list (vs.toList.map variableNote)).map reread =
        (nonEmpty? found).map fun vs => .list (vs.toList.map variableNote) := by
    cases found with
    | none => rfl
    | some vs =>
      have hsome : nonEmpty? (some vs) = some vs := nonEmpty?_eq_self h.2
      rw [hsome] at hfound ⊢
      exact congrArg some (reread_notes hfound)
  rw [hfields, hprompt, hurl, hnotes]
  rfl

/-- Generated media that have come back the same from their own fields have lost nothing in
them. -/
theorem reread_mediaFields_of_readMedia {media : Generated} {entries : List (Value × Value)}
    {place : Place} (h : media.Normal)
    (hentries : reread (.map (asEntries (mediaFields media))) = .map entries)
    (hread : readMedia (fenceName media) place entries = .ok media) :
    reread (.map (asEntries (mediaFields media))) = .map (asEntries (mediaFields media)) := by
  have hagain (media' : Generated) (hnormal : media'.Normal)
      (hfence : fenceName media' = fenceName media)
      (hfields : reread (.map (asEntries (mediaFields media))) =
        .map (asEntries (mediaFields media'))) :
      reread (.map (asEntries (mediaFields media))) = .map (asEntries (mediaFields media)) := by
    rw [hfields] at hentries
    obtain rfl := Value.map.inj hentries
    rw [← hfence, readMedia_mediaFields hnormal] at hread
    obtain rfl := Except.ok.inj hread
    exact hfields
  cases media with
  | image prompt character characters url =>
    obtain ⟨hnames, hfilled⟩ := reread_characters h.2
    refine hagain (.image (rereadString prompt) (character.map rereadString)
      (characters.map (List.map rereadString)) (url.map rereadString))
      ⟨filled_rereadString h.1, hfilled⟩ rfl ?_
    refine (Yaml.reread_heldFields (by simp) ?_).trans ?_
    · show ∀ k ∈ ["prompt", "character", "characters", "url"], Survives k
      decide +kernel
    · simp only [List.map_cons, List.map_nil, Option.map_some, Yaml.map_reread_str, hnames, reread,
        mediaFields]
  | audio kind prompt url =>
    refine hagain (.audio kind (rereadString prompt) (url.map rereadString))
      (filled_rereadString h) rfl ?_
    refine (Yaml.reread_heldFields (by simp) ?_).trans ?_
    · show ∀ k ∈ ["type", "prompt", "url"], Survives k
      decide +kernel
    · simp only [List.map_cons, List.map_nil, Option.map_some, Yaml.map_reread_str, reread,
        reread_kindName, mediaFields]
  | video prompt url =>
    refine hagain (.video (rereadString prompt) (url.map rereadString))
      (filled_rereadString h) rfl ?_
    refine (Yaml.reread_heldFields (by simp) ?_).trans ?_
    · show ∀ k ∈ ["prompt", "url"], Survives k
      decide +kernel
    · simp only [List.map_cons, List.map_nil, Option.map_some, Yaml.map_reread_str, reread,
        mediaFields]
  | minigame prompt notes url => exact reread_minigame h hentries hread

/-! ## What has come back the same -/

/-- **A story that has come back the same from its own front matter has lost nothing in it.** -/
theorem lasting_metadataEntries {g told : Game} {text : List Char} {entries : List (Value × Value)}
    (h : (Heading.ofGame g).Shown) (htext : writeMetadata g = .ok text)
    (hload : loadMetadata (String.ofList text) = .ok entries)
    (htold : readMetadata entries = .ok told) (hsame : g = { told with scenes := g.scenes }) :
    Yaml.Lasting (asEntries (metadataEntries g)) := by
  have hdata := topData_metadataEntries g
  have hload : Yaml.load text = .ok (.map entries) := by
    rw [loadMetadata, String.toList_ofList] at hload
    split at hload <;> cases hload
    assumption
  obtain ⟨hfits, hentries⟩ := Yaml.fits_of_load (metadataEntries_ne_nil g) hdata htext hload
  have hreread := reread_metadataEntries_of_readMetadata h hentries.symm htold hsame
  exact ⟨(Yaml.exists_renderBody_iff hdata).1 ⟨text, htext⟩, hfits,
    (Yaml.reread_eq_self_iff (distinct_metadataEntries g)).1 hreread⟩

/-- **Generated media that have come back the same from their own fields have lost nothing in
them.** -/
theorem lasting_mediaFields {media : Generated} {text : List Char} {entries : List (Value × Value)}
    {fence : String} {place : Place} (h : media.Normal)
    (htext : Yaml.renderBody ["characters"] (asEntries (mediaFields media)) = .ok text)
    (hload : loadBlock fence (String.ofList text) place = .ok entries)
    (hread : readMedia (fenceName media) place entries = .ok media) :
    Yaml.Lasting (asEntries (mediaFields media)) := by
  have hdata := topData_mediaFields media
  have hne := mediaFields_ne_nil media
  obtain ⟨v, hv, hload⟩ : ∃ v, Yaml.load text = .ok v ∧ (v = .null ∨ v = .map entries) := by
    rw [loadBlock, String.toList_ofList, dedent_of_renderBody hne hdata htext] at hload
    split at hload <;> cases hload
    · exact ⟨_, ‹_›, .inl rfl⟩
    · exact ⟨_, ‹_›, .inr rfl⟩
  obtain ⟨hfits, rfl⟩ := Yaml.fits_of_load hne hdata htext hv
  rcases hload with hnull | hentries
  · cases hnull
  have hreread := reread_mediaFields_of_readMedia h hentries hread
  exact ⟨(Yaml.exists_renderBody_iff hdata).1 ⟨text, htext⟩, hfits,
    (Yaml.reread_eq_self_iff (distinct_mediaFields media)).1 hreread⟩

end Script

end Storyline
