import Storyline.Proofs.Outcome
import Storyline.Proofs.Yaml.Characters
import Storyline.Proofs.Yaml.Layout

/-!
# The tokens of written data

Every line of a collection stands at the indentation of the collection and leads to the words of an
item or an entry; the lines together lead to the words of the collection. By induction over the data
its whole text leads to the words of the data.

## Main definitions

* `Data`: what is written: scalars, lists, and mappings with names as keys
* `isScalar`: what is written on the line of its mark
* `names`, `Fits`: the keys of data, and whether a key fits on the line of its colon
* `valueWords`, `itemWords`, `entryWords`: the words of data
* `LineLeads`: a text on lines of its own leads to words

## Main results

* `lineLeads_item`, `lineLeads_entry`: an item or an entry leads to its words if its value does
* `Data.valueText_induction`: induction over the texts of data
* `leads_of_data`: the text of data after a mark leads to the words of the data
-/

namespace Storyline.Yaml

/-! ## Data -/

/-- What is written: scalars, lists of data, and mappings with names as keys and data as values. -/
inductive Data : Value → Prop where
  | bool (b : Bool) : Data (.bool b)
  | int (n : Int) : Data (.int n)
  | float (x : Float) : Data (.float x)
  | str (s : String) : Data (.str s)
  | list {items : List Value} (h : ∀ v ∈ items, Data v) : Data (.list items)
  | map {entries : List (Value × Value)} (hkeys : ∀ e ∈ entries, ∃ s, e.1 = .str s)
    (h : ∀ e ∈ entries, Data e.2) : Data (.map entries)

theorem Data.keys {entries : List (Value × Value)} (h : Data (.map entries)) :
    ∀ e ∈ entries, ∃ s, e.1 = .str s := by
  cases h with
  | map hkeys _ => exact hkeys

theorem Data.values {entries : List (Value × Value)} (h : Data (.map entries)) :
    ∀ e ∈ entries, Data e.2 := by
  cases h with
  | map _ hvalues => exact hvalues

/-- Whether a value has no parts, so that it is written on the line of its mark. -/
def isScalar : Value → Bool
  | .set _ | .pair .. | .list _ | .map _ => false
  | _ => true

theorem valueText_of_isScalar {v : Value} (h : isScalar v = true) (indent : Nat) (fresh : Bool) :
    valueText indent fresh v = (do return ' ' :: (← scalarForm .value (indent + 2) v)) := by
  cases v <;> first | rfl | cases h

mutual

/-- The keys of data, at every depth. -/
def names : Value → List String
  | .list items => namesOfItems items
  | .map entries => namesOfEntries entries
  | _ => []

/-- The keys of items. -/
def namesOfItems : List Value → List String
  | [] => []
  | v :: vs => names v ++ namesOfItems vs

/-- The keys of entries and those in their values. -/
def namesOfEntries : List (Value × Value) → List String
  | [] => []
  | (.str k, v) :: es => k :: (names v ++ namesOfEntries es)
  | (_, v) :: es => names v ++ namesOfEntries es

end

/-- Whether a name is written on the line of its colon. -/
def isSimpleName (s : String) : Bool :=
  !s.toList.isEmpty && !isMultiline s.toList &&
    s.toList.length + tagLength (.str s) < simpleKeyLimit

/-- Whether a name, if it is written on the line of its colon, is not too long to be read there. -/
def Fits (s : String) : Prop :=
  isSimpleName s = true → (stringText .key 0 s.toList).length ≤ Scanner.keyLimit

theorem isMultiline_of_isSimpleName {s : String} (h : isSimpleName s = true) :
    isMultiline s.toList = false := by
  rw [isSimpleName, Bool.and_eq_true, Bool.and_eq_true] at h
  simpa using h.1.2

/-- The indentation does not matter to whether a name fits. -/
theorem fits_iff_of_isSimpleName {s : String} (h : isSimpleName s = true) (indent : Nat) :
    Fits s ↔ (stringText .key indent s.toList).length ≤ Scanner.keyLimit := by
  rw [Fits, stringText_indent (isMultiline_of_isSimpleName h) .key indent]
  exact forall_prop_of_true h

mutual

/-- The words of a value. -/
def valueWords : Value → List Word
  | .list items =>
    if items.isEmpty then [.flowSequenceStart, .flowSequenceEnd]
    else .blockSequenceStart :: itemWords items ++ [.blockEnd]
  | .map entries =>
    if entries.isEmpty then [.flowMappingStart, .flowMappingEnd]
    else .blockMappingStart :: entryWords entries ++ [.blockEnd]
  | v => [wordOf .value v]

/-- The words of the items of a sequence. -/
def itemWords : List Value → List Word
  | [] => []
  | v :: vs => .blockEntry :: valueWords v ++ itemWords vs

/-- The words of the entries of a mapping. -/
def entryWords : List (Value × Value) → List Word
  | [] => []
  | (k, v) :: es => .key :: wordOf .key k :: .value :: valueWords v ++ entryWords es

end

theorem names_of_isScalar {v : Value} (h : isScalar v = true) : names v = [] := by
  cases v <;> first | rfl | cases h

theorem valueWords_of_isScalar {v : Value} (h : isScalar v = true) :
    valueWords v = [wordOf .value v] := by
  cases v <;> first | rfl | cases h

/-! ## Collections -/

/-- The line of an item. -/
def itemLine (indent : Nat) (v : Value) : Except NumberFault (List Char) := do
  return '-' :: (← valueText indent false v)

/-- The line or lines of an entry. -/
def entryLine (indent : Nat) (e : Value × Value) : Except NumberFault (List Char) := do
  let simple ← isSimpleKey e.1
  let key ← scalarForm (if simple then .key else .value) (indent + 2) e.1
  let value ← valueText indent simple e.2
  return if simple then key ++ ':' :: value
    else '?' :: ' ' :: key ++ newLine indent ++ ':' :: value

theorem itemTexts_eq_mapM (indent : Nat) (vs : List Value) :
    itemTexts indent vs = vs.mapM (itemLine indent) := by
  induction vs with
  | nil => rfl
  | cons v vs ih =>
    rw [itemTexts, List.mapM_cons, ih, itemLine]
    simp only [bind_assoc, pure_bind]

theorem entryTexts_eq_mapM (indent : Nat) (es : List (Value × Value)) :
    entryTexts indent es = es.mapM (entryLine indent) := by
  induction es with
  | nil => rfl
  | cons e es ih =>
    rw [entryTexts, List.mapM_cons, ih, entryLine]
    simp only [bind_assoc, pure_bind]

/-- **Induction over the texts of data.** A text is a scalar on the line of its mark, a pair of
brackets, or the lines of a collection, in which the texts of its items or values stand. -/
theorem Data.valueText_induction {P : Value → Nat → Bool → List Char → Prop}
    (scalar : ∀ {v : Value} {indent : Nat} {fresh : Bool} {form : List Char}, isScalar v = true →
      scalarForm .value (indent + 2) v = .ok form → P v indent fresh (' ' :: form))
    (noItems : ∀ {indent : Nat} {fresh : Bool}, P (.list []) indent fresh [' ', '[', ']'])
    (noEntries : ∀ {indent : Nat} {fresh : Bool}, P (.map []) indent fresh [' ', '{', '}'])
    (items : ∀ {vs : List Value} {indent : Nat} {fresh : Bool} {ls : List (List Char)}, vs ≠ [] →
      vs.mapM (itemLine (indent + 2)) = .ok ls →
      (∀ v ∈ vs, ∀ {text : List Char}, valueText (indent + 2) false v = .ok text →
        P v (indent + 2) false text) →
      P (.list vs) indent fresh (gap (indent + 2) fresh ++ joinLines (indent + 2) ls))
    (entries : ∀ {es : List (Value × Value)} {indent : Nat} {fresh : Bool}
      {ls : List (List Char)}, es ≠ [] → (∀ e ∈ es, ∃ k, e.1 = .str k) →
      es.mapM (entryLine (indent + 2)) = .ok ls →
      (∀ e ∈ es, ∀ {fresh : Bool} {text : List Char},
        valueText (indent + 2) fresh e.2 = .ok text → P e.2 (indent + 2) fresh text) →
      P (.map es) indent fresh (gap (indent + 2) fresh ++ joinLines (indent + 2) ls))
    {v : Value} (hv : Data v) {indent : Nat} {fresh : Bool} {text : List Char}
    (h : valueText indent fresh v = .ok text) : P v indent fresh text := by
  have hscalar {u : Value} (hu : isScalar u = true) {indent : Nat} {fresh : Bool}
      {text : List Char} (h : valueText indent fresh u = .ok text) : P u indent fresh text := by
    rw [valueText_of_isScalar hu, Except.bind_eq_ok_iff] at h
    obtain ⟨form, hform, h⟩ := h
    cases h
    exact scalar hu hform
  induction hv generalizing indent fresh text with
  | bool b => exact hscalar rfl h
  | int n => exact hscalar rfl h
  | float x => exact hscalar rfl h
  | str s => exact hscalar rfl h
  | @list vs _ ih =>
    rw [valueText] at h
    cases vs with
    | nil =>
      cases h
      exact noItems
    | cons v vs =>
      obtain ⟨ls, hls, h⟩ := Except.bind_eq_ok_iff.1 h
      cases h
      rw [itemTexts_eq_mapM] at hls
      exact items (List.cons_ne_nil v vs) hls fun u hu _ => ih u hu
  | @map es hkeys _ ih =>
    rw [valueText] at h
    cases es with
    | nil =>
      cases h
      exact noEntries
    | cons e es =>
      obtain ⟨ls, hls, h⟩ := Except.bind_eq_ok_iff.1 h
      cases h
      rw [entryTexts_eq_mapM] at hls
      exact entries (List.cons_ne_nil e es) hkeys hls fun u hu _ _ => ih u hu

/-- The words of an entry. -/
def wordsOfEntry (e : Value × Value) : List Word :=
  .key :: wordOf .key e.1 :: .value :: valueWords e.2

theorem itemWords_eq_flatMap (vs : List Value) :
    itemWords vs = vs.flatMap fun v => .blockEntry :: valueWords v := by
  induction vs with
  | nil => rfl
  | cons v vs ih => rw [itemWords, List.flatMap_cons, ih]

theorem entryWords_eq_flatMap (es : List (Value × Value)) :
    entryWords es = es.flatMap wordsOfEntry := by
  induction es with
  | nil => rfl
  | cons e es ih =>
    rw [entryWords, List.flatMap_cons, ih]
    rfl

theorem mem_namesOfItems {vs : List Value} {k : String} :
    k ∈ namesOfItems vs ↔ ∃ v ∈ vs, k ∈ names v := by
  induction vs with
  | nil => simp [namesOfItems]
  | cons v vs ih => simp [namesOfItems, ih]

theorem forall_namesOfItems {vs : List Value} :
    (∀ k ∈ namesOfItems vs, Fits k) ↔ ∀ v ∈ vs, ∀ k ∈ names v, Fits k := by
  simp only [mem_namesOfItems]
  constructor
  · exact fun h v hv k hk => h k ⟨v, hv, hk⟩
  · rintro h k ⟨v, hv, hk⟩
    exact h v hv k hk

theorem mem_namesOfEntries {es : List (Value × Value)} {k : String} :
    k ∈ namesOfEntries es ↔ ∃ e ∈ es, e.1 = .str k ∨ k ∈ names e.2 := by
  induction es with
  | nil => simp [namesOfEntries]
  | cons e es ih =>
    obtain ⟨j, v⟩ := e
    cases j <;> simp [namesOfEntries, ih, eq_comm, or_assoc]

/-- Whether a name that is the key of a value fits, and the keys in the value do. -/
def EntryFits (e : Value × Value) : Prop :=
  (∀ k, e.1 = .str k → Fits k) ∧ ∀ k ∈ names e.2, Fits k

theorem forall_namesOfEntries {es : List (Value × Value)} :
    (∀ k ∈ namesOfEntries es, Fits k) ↔ ∀ e ∈ es, EntryFits e := by
  simp only [mem_namesOfEntries]
  constructor
  · exact fun h e he => ⟨fun k hk => h k ⟨e, he, .inl hk⟩, fun k hk => h k ⟨e, he, .inr hk⟩⟩
  · rintro h k ⟨e, he, hk | hk⟩
    · exact (h e he).1 k hk
    · exact (h e he).2 k hk

namespace Scanner

variable {s t : Scanner} {m n : Nat} {i : Int} {base : List Int} {ws : List Word}
  {rest : List Char} {p p' : Prop}

/-! ## Lines -/

/-- A text on lines of its own leads to words if it fulfils a condition, and opens a block if the
lines are indented more than the open one. -/
structure LineLeads (block : Word) (n : Nat) (p : Prop) (text : List Char) (words : List Word) :
    Prop where
  start : ∀ r, LineStart (text ++ r)
  inside : .streamEnd ∉ words
  leads : ∀ {s t : Scanner} {rest : List Char} {i : Int} {base : List Int} {ws : List Word},
    s.done = false → s.turn = t.fetchAt → t.Ready (text ++ rest) n (i :: base) ws → i ≤ n →
      Follows n rest → .streamEnd ∉ ws →
        Leads text.length p s (Left · rest n (around n i base) (ws ++ opening block n i ++ words))

theorem not_mem_opening {block : Word} (hblock : block ≠ .streamEnd) :
    .streamEnd ∉ opening block n i := by
  rw [opening]
  split
  · simpa using hblock.symm
  · simp

theorem LineLeads.append {block : Word} (hblock : block ≠ .streamEnd) {text text' : List Char}
    {words words' : List Word} (h : LineLeads block n p text words)
    (h' : LineLeads block n p' text' words') :
    LineLeads block n (p ∧ p') (text ++ (newLine n ++ text')) (words ++ words') := by
  refine ⟨fun r => by rw [List.append_assoc]; exact h.start _, ?_, ?_⟩
  · rw [List.mem_append]
    exact not_or.2 ⟨h.inside, h'.inside⟩
  · intro s t rest i base ws hdone hturn hready hi hrest hws
    rw [List.append_assoc, List.append_assoc] at hready
    refine ((h.leads hdone hturn hready hi (.inr ⟨n, _, le_rfl, rfl, h'.start rest⟩) hws).bind
      (n := text'.length) fun u hu => ?_).weaken ?_ Iff.rfl fun u hu => hu
    · obtain ⟨v, hturn, hv⟩ := turn_newLine hu.paused (h'.start rest).token
      rw [hu.closed n le_rfl, closeAll_of_le le_rfl] at hv
      have hws' : .streamEnd ∉ ws ++ opening block n i ++ words := by
        simp only [List.mem_append, not_or]
        exact ⟨⟨hws, not_mem_opening hblock⟩, h.inside⟩
      refine (h'.leads hu.paused.done hturn hv le_rfl hrest hws').weaken le_rfl Iff.rfl
        fun w hw => ?_
      rw [around_self, opening_self] at hw
      simpa using hw
    · rw [List.length_append, List.length_append]
      omega

/-- A collection after a mark, with its block closed at the end. -/
theorem leads_block {block : Word} {fresh : Bool} {indent : Nat} {text : List Char}
    {words : List Word} (htext : LineLeads block (indent + 2) p text words)
    (h : s.Marked fresh indent (gap (indent + 2) fresh ++ text ++ rest) base ws)
    (hrest : Follows indent rest) (hws : .streamEnd ∉ ws) :
    Leads (text.length + 1) p s
      (Left · rest indent base (ws ++ (block :: words ++ [.blockEnd]))) := by
  have hindent : s.indent = indent := (List.cons.inj h.blocks).1
  have hstart := (htext.start rest).token
  rw [List.append_assoc] at h
  obtain ⟨t, hturn, ht⟩ : ∃ t : Scanner, s.turn = t.fetchAt ∧
      t.Ready (text ++ rest) (indent + 2) ((indent : Int) :: base) ws := by
    -- After a key on one line the block begins on the next, after any other mark on the same.
    cases fresh with
    | true =>
      have hpaused : s.Paused (newLine (indent + 2) ++ (text ++ rest)) :=
        ⟨h.flow, h.done, by simp [h.starts], .inl ⟨h.rest, by simp [h.starts]⟩⟩
      obtain ⟨t, hturn, ht⟩ := turn_newLine hpaused hstart
      rw [h.blocks, h.words, closeAll_of_le (by omega)] at ht
      exact ⟨t, hturn, ht⟩
    | false =>
      obtain ⟨hallowed, hcolumn⟩ := h.next rfl
      obtain ⟨ks, hks, hturn⟩ := turn_sameLine (n := 1) (by simp [h.starts]) h.rest hstart
        (.inr (by omega))
      rw [h.starts] at hks
      obtain rfl := List.subset_nil.1 hks
      refine ⟨_, hturn, by rw [Cursor.along], ?_, h.flow, rfl, hallowed, h.blocks, h.words, h.done⟩
      dsimp only [Cursor.along]
      rw [hcolumn]
  have hlt : (indent : Int) < ((indent + 2 : Nat) : Int) := by omega
  have hfollows : Follows (indent + 2) rest := by
    rcases hrest with h | ⟨n, next, hn, h⟩
    · exact .inl h
    · exact .inr ⟨n, next, by omega, h⟩
  refine (htext.leads h.done hturn ht hlt.le hfollows hws).weaken (by omega) Iff.rfl
    fun u hu => ⟨hu.paused, fun m hm => ?_⟩
  rw [hu.closed m (by omega), around, if_pos hlt, opening, if_pos hlt, closeAll_of_lt (by omega)]
  simp

/-! ## Items and entries -/

/-- A text after a mark leads to words if it fulfils a condition. -/
structure ValueLeads (fresh : Bool) (indent : Nat) (p : Prop) (text : List Char)
    (words : List Word) : Prop where
  start : ∃ c r, text = c :: r ∧ isSeparator c = true
  inside : .streamEnd ∉ words
  leads : ∀ {s : Scanner} {rest : List Char} {base : List Int} {ws : List Word},
    s.Marked fresh indent (text ++ rest) base ws → Follows indent rest → .streamEnd ∉ ws →
      Leads text.length p s (Left · rest indent base (ws ++ words))

theorem ValueLeads.head?_all {fresh : Bool} {indent : Nat} {text : List Char} {words : List Word}
    (h : ValueLeads fresh indent p text words) (r : List Char) :
    (text ++ r).head?.all isSeparator = true := by
  obtain ⟨c, t, rfl, hc⟩ := h.start
  exact hc

theorem lineStart_cons {c : Char} (hc : isInline c = true) (hc' : c ≠ ' ' ∧ c ≠ '#')
    (hmark : c ≠ '-' ∧ c ≠ '.') (r : List Char) : LineStart (c :: r) := by
  have hprefix (q : Char) (hq : c ≠ q) : [q, q, q].isPrefixOf (c :: r) = false := by
    rw [← Bool.not_eq_true, List.isPrefixOf_iff_prefix, List.cons_prefix_cons]
    exact fun h => hq h.1.symm
  refine ⟨?_, hprefix '-' hmark.1, hprefix '.' hmark.2⟩
  intro x hx
  cases hx
  exact ⟨hc'.1, hc'.2, (isInline_eq_true hc).1, beq_eq_false_iff_ne.1 (isInline_eq_true hc).2⟩

/-- An item is a hyphen and its value. -/
theorem lineLeads_item {text : List Char} {words : List Word}
    (h : ValueLeads false n p text words) :
    LineLeads .blockSequenceStart n p ('-' :: text) (.blockEntry :: words) := by
  refine ⟨fun r => ⟨?_, ?_, ?_⟩, ?_, ?_⟩
  · intro x hx
    cases hx
    decide
  · obtain ⟨c, t, rfl, hc⟩ := h.start
    refine isPrefixOf_append (t := ['-']) (List.cons_ne_nil _ _) rfl fun hhead => ?_
    cases hhead
    exact absurd hc (by decide)
  · rw [← Bool.not_eq_true, List.isPrefixOf_iff_prefix, List.cons_append, List.cons_prefix_cons]
    exact fun h => absurd h.1 (by decide)
  · rw [List.mem_cons]
    exact not_or.2 ⟨by decide, h.inside⟩
  · intro s t rest i base ws hdone hturn hready hi hrest hws
    have hmark : ('-', .blockEntry, .blockSequenceStart) ∈ lineMarks := List.mem_cons_self
    obtain ⟨u, hfetch, hu⟩ := exists_marked hmark hready hi (h.head?_all rest)
    refine leads_head hdone (hturn.trans hfetch) ((h.leads hu hrest ?_).weaken le_rfl Iff.rfl
      fun v hv => ?_)
    · simp only [List.mem_append, not_or, List.mem_singleton]
      exact ⟨⟨hws, not_mem_opening (by decide)⟩, by decide⟩
    · simpa using hv

/-- An entry whose key is on the line of its value. -/
theorem lineLeads_simpleEntry {key text : List Char} {word : Word} {words : List Word}
    (hkey : ScalarText false key word) (hinline : ∀ x ∈ key, isInline x = true)
    (h : ValueLeads true n p text words) :
    LineLeads .blockMappingStart n (key.length ≤ keyLimit ∧ p) (key ++ ':' :: text)
      (.key :: word :: .value :: words) := by
  have hword := hkey.word_ne.symm
  refine ⟨fun r => ?_, ?_, ?_⟩
  · rw [List.append_assoc]
    exact hkey.lineStart rfl
  · simp only [List.mem_cons, not_or]
    exact ⟨by decide, hword, by decide, h.inside⟩
  · intro s t rest i base ws hdone hturn hready hi hrest hws
    rw [List.append_assoc, List.cons_append] at hready
    refine ((leads_simpleKey hdone hturn hready hi hkey hinline (h.head?_all rest) ?_).bind
      fun u hu => (h.leads hu hrest ?_)).weaken ?_ Iff.rfl fun v hv => ?_
    · simp only [List.mem_append, not_or, List.mem_singleton]
      exact ⟨hws, hword⟩
    · simp only [List.mem_append, not_or, List.mem_cons, List.not_mem_nil, not_false_iff, and_true]
      exact ⟨⟨hws, not_mem_opening (by decide)⟩, by decide, hword, by decide⟩
    · have hlength := hkey.length_pos
      rw [List.length_append, List.length_cons]
      omega
    · simpa using hv

/-- An entry with a mark in front of its key, and its value on the next line. -/
theorem lineLeads_entry {key text : List Char} {word : Word} {words : List Word}
    (hkey : ScalarText false key word) (h : ValueLeads false n p text words) :
    LineLeads .blockMappingStart n p ('?' :: ' ' :: key ++ newLine n ++ ':' :: text)
      (.key :: word :: .value :: words) := by
  have hword := hkey.word_ne.symm
  refine ⟨fun r => lineStart_cons (by decide) (by decide) (by decide) _, ?_, ?_⟩
  · simp only [List.mem_cons, not_or]
    exact ⟨by decide, hword, by decide, h.inside⟩
  · intro s t rest i base ws hdone hturn hready hi hrest hws
    have htext : '?' :: ' ' :: key ++ newLine n ++ ':' :: text ++ rest =
        '?' :: (' ' :: key ++ (newLine n ++ (':' :: (text ++ rest)))) := by simp
    have hnext : LineStart (':' :: (text ++ rest)) :=
      lineStart_cons (by decide) (by decide) (by decide) _
    rw [htext] at hready
    have hmark : ('?', .key, .blockMappingStart) ∈ lineMarks := by simp [lineMarks]
    obtain ⟨u, hfetch, hu⟩ := exists_marked hmark hready hi rfl
    refine leads_head hdone (hturn.trans hfetch) (((leads_scalar hu hkey
      (.inr ⟨n, _, le_rfl, rfl, hnext⟩)).bind (n := text.length + 1) fun v hv => ?_).weaken ?_
        (iff_of_eq (true_and p)) fun v hv => hv)
    · -- The colon stands on a new line at the same indentation, so no block is closed or opened.
      obtain ⟨w, hturn', hw⟩ := turn_newLine hv.paused hnext.token
      rw [hv.closed n le_rfl, closeAll_of_le le_rfl] at hw
      have hcolon : (':', .value, .blockMappingStart) ∈ lineMarks := by simp [lineMarks]
      obtain ⟨x, hfetch', hx⟩ := exists_marked hcolon hw le_rfl (h.head?_all rest)
      rw [around_self, opening_self] at hx
      refine leads_head hv.paused.done (hturn'.trans hfetch') ((h.leads hx hrest ?_).weaken le_rfl
        Iff.rfl fun y hy => ?_)
      · simp only [List.mem_append, not_or, List.mem_singleton, List.not_mem_nil, not_false_iff]
        exact ⟨⟨⟨⟨⟨hws, not_mem_opening (by decide)⟩, by decide⟩, hword⟩, trivial⟩, by decide⟩
      · simpa using hy
    · show 1 + (text.length + 1) ≤ (' ' :: key ++ newLine n ++ ':' :: text).length
      simp only [List.length_append, List.length_cons]
      omega

/-- Lines one below the other lead to their words. -/
theorem lineLeads_mapM {α ε : Type} {block : Word} (hblock : block ≠ .streamEnd)
    {f : α → Except ε (List Char)} {p : α → Prop} {w : α → List Word} {xs : List α}
    (hne : xs ≠ []) (h : ∀ x ∈ xs, ∀ l, f x = .ok l → LineLeads block n (p x) l (w x))
    {ls : List (List Char)} (hls : xs.mapM f = .ok ls) :
    LineLeads block n (∀ x ∈ xs, p x) (joinLines n ls) (xs.flatMap w) := by
  rw [Except.mapM_eq_ok_iff] at hls
  induction hls with
  | nil => exact absurd rfl hne
  | @cons x l xs ls hl hls ih =>
    have hfirst := h x List.mem_cons_self l hl
    rw [List.forall_mem_cons, List.flatMap_cons]
    cases hls with
    | nil =>
      rw [joinLines, List.intercalate_singleton]
      simpa using hfirst
    | @cons x' l' xs ls hl' hls =>
      rw [joinLines, List.intercalate_cons_cons, List.append_assoc]
      exact hfirst.append hblock
        (ih (List.cons_ne_nil x' xs) fun y hy => h y (List.mem_cons_of_mem x hy))

/-! ## Values -/

/-- An entry with a simple name leads to its words if the name fits and the value does. -/
theorem lineLeads_simpleName {k : String} (hk : isSimpleName k = true) {text : List Char}
    {words : List Word} (h : ValueLeads true n p text words) :
    LineLeads .blockMappingStart n (Fits k ∧ p)
      (stringText .key (n + 2) k.toList ++ ':' :: text)
      (.key :: wordOf .key (.str k) :: .value :: words) := by
  have hline := isMultiline_of_isSimpleName hk
  rw [fits_iff_of_isSimpleName hk (n + 2)]
  exact lineLeads_simpleEntry (scalarText_string .key (Nat.succ_pos (n + 1)) k.toList)
    (fun c hc => isInline_of_mem_stringText hline hc) h

/-- An entry leads to its words if its key and the keys in its value fit. -/
theorem lineLeads_entryLine {k : String} {v : Value}
    (hv : ∀ fresh text, valueText n fresh v = .ok text →
      ValueLeads fresh n (∀ j ∈ names v, Fits j) text (valueWords v))
    {l : List Char} (h : entryLine n (.str k, v) = .ok l) :
    LineLeads .blockMappingStart n (EntryFits (.str k, v)) l (wordsOfEntry (.str k, v)) := by
  rw [entryLine, Except.bind_eq_ok_iff] at h
  obtain ⟨simple, hsimple, h⟩ := h
  obtain ⟨key, hkey, h⟩ := Except.bind_eq_ok_iff.1 h
  obtain ⟨value, hvalue, h⟩ := Except.bind_eq_ok_iff.1 h
  cases h
  have hname : isSimpleName k = simple := Except.ok.inj hsimple
  have hvalue' := hv _ _ hvalue
  have hfits : EntryFits (.str k, v) ↔ Fits k ∧ ∀ j ∈ names v, Fits j := by
    simp [EntryFits]
  rw [hfits]
  cases simple with
  | true =>
    cases hkey
    exact lineLeads_simpleName hname hvalue'
  | false =>
    cases hkey
    -- Behind a question mark no key is too long.
    have hfits' : Fits k := fun hsimple => by rw [hname] at hsimple; cases hsimple
    have hleads := lineLeads_entry
      (scalarText_string .value (Nat.succ_pos (n + 1)) k.toList) hvalue'
    rw [and_iff_right hfits']
    exact hleads

/-- A scalar stands on the line of its mark. -/
theorem valueLeads_scalar {v : Value} (hv : isScalar v = true) {fresh : Bool} {indent : Nat}
    {form : List Char} (hform : scalarForm .value (indent + 2) v = .ok form) :
    ValueLeads fresh indent (∀ k ∈ names v, Fits k) (' ' :: form) (valueWords v) := by
  have htext := scalarText_of_scalarForm (by decide) (Nat.succ_pos (indent + 1)) hform
  rw [valueWords_of_isScalar hv, names_of_isScalar hv]
  refine ⟨⟨' ', form, rfl, rfl⟩, ?_, fun h hrest hws => ?_⟩
  · simpa using htext.word_ne.symm
  · exact (leads_scalar h htext hrest).weaken (by simp) (by simp) fun t ht => ht

/-- So does a collection that is empty, as a pair of brackets. -/
theorem valueLeads_brackets {fresh : Bool} {indent : Nat} {op cl : Char × Word}
    (hop : (op, cl) ∈ brackets) :
    ValueLeads fresh indent (∀ k ∈ ([] : List String), Fits k) [' ', op.1, cl.1]
      [op.2, cl.2] := by
  refine ⟨⟨' ', _, rfl, rfl⟩, ?_, fun h hrest hws => ?_⟩
  · rw [brackets, List.mem_cons, List.mem_singleton] at hop
    rcases hop with hop | hop <;> cases hop <;> decide
  · refine ((leads_opening hop h).bind fun t ht => leads_closing hop ht).weaken (by simp)
      (by simp) fun t ht => ?_
    simpa using ht

/-- The lines of a collection, indented more than its mark, are closed as a block. -/
theorem LineLeads.valueLeads {block : Word} (hblock : block ≠ .streamEnd) {fresh : Bool}
    {indent : Nat} {p : Prop} {text : List Char} {words : List Word}
    (h : LineLeads block (indent + 2) p text words) :
    ValueLeads fresh indent p (gap (indent + 2) fresh ++ text) (block :: words ++ [.blockEnd]) := by
  refine ⟨?_, ?_, fun hmarked hrest hws => ?_⟩
  · cases fresh with
    | true => exact ⟨'\n', _, rfl, rfl⟩
    | false => exact ⟨' ', _, rfl, rfl⟩
  · simp only [List.cons_append, List.mem_cons, List.mem_append, List.not_mem_nil, or_false,
      not_or]
    exact ⟨hblock.symm, h.inside, by decide⟩
  · refine (leads_block h hmarked hrest hws).weaken ?_ Iff.rfl fun t ht => ht
    rw [List.length_append]
    cases fresh <;> simp [gap, newLine]

/-- The lines of items lead to the words of the list. -/
theorem lineLeads_items {indent : Nat} {vs : List Value} (hne : vs ≠ []) {ls : List (List Char)}
    (hls : vs.mapM (itemLine indent) = .ok ls)
    (ih : ∀ v ∈ vs, ∀ {text : List Char}, valueText indent false v = .ok text →
      ValueLeads false indent (∀ k ∈ names v, Fits k) text (valueWords v)) :
    LineLeads .blockSequenceStart indent (∀ k ∈ namesOfItems vs, Fits k) (joinLines indent ls)
      (itemWords vs) := by
  have hitem : ∀ v ∈ vs, ∀ l, itemLine indent v = .ok l →
      LineLeads .blockSequenceStart indent (∀ k ∈ names v, Fits k) l
        (.blockEntry :: valueWords v) := by
    intro v hv l hl
    obtain ⟨text, htext, hl⟩ := Except.bind_eq_ok_iff.1 hl
    cases hl
    exact lineLeads_item (ih v hv htext)
  rw [itemWords_eq_flatMap, forall_namesOfItems]
  exact lineLeads_mapM (by decide) hne hitem hls

/-- The lines of entries lead to the words of the mapping. -/
theorem lineLeads_entries {indent : Nat} {es : List (Value × Value)} (hne : es ≠ [])
    (hkeys : ∀ e ∈ es, ∃ k, e.1 = .str k) {ls : List (List Char)}
    (hls : es.mapM (entryLine indent) = .ok ls)
    (ih : ∀ e ∈ es, ∀ {fresh : Bool} {text : List Char}, valueText indent fresh e.2 = .ok text →
      ValueLeads fresh indent (∀ k ∈ names e.2, Fits k) text (valueWords e.2)) :
    LineLeads .blockMappingStart indent (∀ k ∈ namesOfEntries es, Fits k) (joinLines indent ls)
      (entryWords es) := by
  have hentry : ∀ e ∈ es, ∀ l, entryLine indent e = .ok l →
      LineLeads .blockMappingStart indent (EntryFits e) l (wordsOfEntry e) := by
    rintro ⟨j, v⟩ he l hl
    obtain ⟨k, rfl⟩ := hkeys _ he
    exact lineLeads_entryLine (fun _ _ htext => ih _ he htext) hl
  rw [entryWords_eq_flatMap, forall_namesOfEntries]
  exact lineLeads_mapM (by decide) hne hentry hls

/-- **The text of data after a mark leads to its words** if its keys fit. -/
theorem leads_of_data {v : Value} (hv : Data v) {indent : Nat} {fresh : Bool} {text : List Char}
    (h : valueText indent fresh v = .ok text) :
    ValueLeads fresh indent (∀ k ∈ names v, Fits k) text (valueWords v) := by
  refine hv.valueText_induction
    (P := fun v indent fresh text =>
      ValueLeads fresh indent (∀ k ∈ names v, Fits k) text (valueWords v))
    (fun hv hform => valueLeads_scalar hv hform) (valueLeads_brackets squareBrackets_mem)
    (valueLeads_brackets curlyBrackets_mem) (fun hne hls ih => ?_)
    (fun hne hkeys hls ih => ?_) h
  · rw [valueWords, if_neg (by simpa using hne), names]
    exact (lineLeads_items hne hls ih).valueLeads (by decide)
  · rw [valueWords, if_neg (by simpa using hne), names]
    exact (lineLeads_entries hne hkeys hls ih).valueLeads (by decide)

end Scanner

end Storyline.Yaml
