import Storyline.Proofs.Yaml.Written

/-!
# The tokens of a written mapping

The text of the outermost mapping, in which some lists stand between brackets, is cut into the
tokens of the mapping exactly when every key fits; else cutting it ends with a fault.

## Main definitions

* `TopData`: a mapping that is written as a text of its own
* `topWords`: its words

## Main results

* `tokenize_eq`: the tokens of the text if every key fits
* `tokenize_fault`: the fault if some key does not fit
-/

namespace Storyline.Yaml

/-- A mapping that is written as a text of its own: names are keys, the names of `inline` fit on the
line of their colon, and the lists under them hold strings.  There is room to read it again. -/
structure TopData (inline : List String) (entries : List (Value × Value)) : Prop where
  keys : ∀ e ∈ entries, ∃ k, e.1 = .str k
  data : ∀ e ∈ entries, Data e.2
  simple : ∀ k ∈ inline, isSimpleName k = true
  members : ∀ e ∈ entries, ∀ k vs, e = (.str k, .list vs) → k ∈ inline → ∀ v ∈ vs, ∃ s, v = .str s
  room : 2 * (Value.map entries).depth ≤ callRoom

theorem TopData.isData {inline : List String} {entries : List (Value × Value)}
    (h : TopData inline entries) : Data (.map entries) :=
  .map h.keys h.data

/-- The line or lines of an entry of the outermost mapping. -/
def topLine (inline : List String) (e : Value × Value) : Except NumberFault (List Char) :=
  match e with
  | (.str k, .list (v :: vs)) =>
    if inline.contains k then inlineEntry (.str k) (v :: vs) else entryLine 0 e
  | e => entryLine 0 e

/-- The words of a list between brackets. -/
def bracketWords (items : List Value) : List Word :=
  .flowSequenceStart :: (items.map (wordOf .bracket)).intersperse .flowEntry ++ [.flowSequenceEnd]

/-- The words of an entry of the outermost mapping. -/
def topWords (inline : List String) (e : Value × Value) : List Word :=
  match e with
  | (.str k, .list (v :: vs)) =>
    if inline.contains k then
      .key :: wordOf .key (.str k) :: .value :: bracketWords (v :: vs)
    else wordsOfEntry e
  | e => wordsOfEntry e

/-- An entry of the outermost mapping is a list between brackets, or it is written like entries of
other mappings. -/
theorem top_cases (inline : List String) {e : Value × Value} (hkey : ∃ k, e.1 = .str k) :
    (∃ k items, e = (.str k, .list items) ∧ items ≠ [] ∧ k ∈ inline ∧
      topLine inline e = inlineEntry (.str k) items ∧
      topWords inline e = .key :: wordOf .key (.str k) :: .value :: bracketWords items) ∨
    (∃ k v, e = (.str k, v)) ∧ topLine inline e = entryLine 0 e ∧
      topWords inline e = wordsOfEntry e := by
  obtain ⟨j, v⟩ := e
  obtain ⟨k, rfl⟩ : ∃ k, j = .str k := hkey
  cases v with
  | list items =>
    cases items with
    | nil => exact .inr ⟨⟨k, _, rfl⟩, rfl, rfl⟩
    | cons v vs =>
      rw [topLine, topWords]
      split
      · next hinline =>
        exact .inl ⟨k, v :: vs, rfl, List.cons_ne_nil v vs, List.contains_iff_mem.1 hinline, rfl,
          rfl⟩
      · exact .inr ⟨⟨k, _, rfl⟩, rfl, rfl⟩
  | _ => exact .inr ⟨⟨k, _, rfl⟩, rfl, rfl⟩

theorem topEntry_eq_map (inline : List String) (e : Value × Value) :
    topEntry inline e = (topLine inline e).map ([·]) := by
  have hentry : entryTexts 0 [e] = (entryLine 0 e).map ([·]) := by
    rw [entryTexts_eq_mapM, List.mapM_cons]
    cases entryLine 0 e <;> rfl
  obtain ⟨k, v⟩ := e
  cases k with
  | str k =>
    cases v with
    | list items =>
      cases items with
      | nil => exact hentry
      | cons v vs =>
        rw [topEntry, topLine]
        cases inline.contains k with
        | true => cases inlineEntry (.str k) (v :: vs) <;> rfl
        | false => exact hentry
    | _ => exact hentry
  | _ => exact hentry

theorem exists_lines_of_renderBody {inline : List String} {entries : List (Value × Value)}
    {text : List Char} (hne : entries ≠ []) (h : renderBody inline entries = .ok text) :
    ∃ ls, entries.mapM (topLine inline) = .ok ls ∧ text = joinLines 0 ls := by
  rw [renderBody, if_neg (by simpa using hne), Except.bind_eq_ok_iff] at h
  obtain ⟨lss, hlss, h⟩ := h
  cases h
  rw [Except.mapM_eq_ok_iff] at hlss
  -- Each entry gives one text, so that joining the lists of texts loses nothing.
  suffices hls : ∃ ls, List.Forall₂ (fun e l => topLine inline e = .ok l) entries ls ∧
      lss.flatten = ls by
    obtain ⟨ls, hls, rfl⟩ := hls
    exact ⟨_, Except.mapM_eq_ok_iff.2 hls, rfl⟩
  clear hne
  induction hlss with
  | nil => exact ⟨[], .nil, rfl⟩
  | @cons e y es ys hy hys ih =>
    obtain ⟨ls, hls, heq⟩ := ih
    rw [topEntry_eq_map] at hy
    cases hl : topLine inline e with
    | error f =>
      rw [hl] at hy
      cases hy
    | ok l =>
      rw [hl] at hy
      cases hy
      exact ⟨l :: ls, .cons hl hls, by rw [List.flatten_cons, heq]; rfl⟩

namespace Scanner

theorem not_mem_intersperse {α : Type} {a sep : α} (hsep : a ≠ sep) {xs : List α} (h : a ∉ xs) :
    a ∉ xs.intersperse sep := by
  induction xs with
  | nil => exact h
  | cons x xs ih =>
    cases xs with
    | nil => exact h
    | cons y ys =>
      rw [List.mem_cons, not_or] at h
      rw [List.intersperse_cons_cons, List.mem_cons, List.mem_cons, not_or, not_or]
      exact ⟨h.1, hsep, ih h.2⟩

theorem wordOf_ne (place : Place) (v : Value) : wordOf place v ≠ .streamEnd := by
  intro h
  cases v with
  | str s =>
    rw [wordOf, stringWord] at h
    split at h <;> cases h
  | _ => cases h

theorem length_le_intercalate {texts : List (List Char)} {words : List Word}
    (h : List.Forall₂ (ScalarText true) texts words) :
    2 * texts.length ≤ (List.intercalate [',', ' '] texts).length + 1 := by
  induction h with
  | nil => exact Nat.zero_le _
  | @cons text word texts words htext htexts ih =>
    have hpos := htext.length_pos
    cases texts with
    | nil =>
      rw [List.intercalate_singleton]
      simp only [List.length_cons, List.length_nil]
      omega
    | cons text' texts =>
      rw [List.intercalate_cons_cons]
      simp only [List.length_append, List.length_cons, List.length_nil] at ih ⊢
      omega

/-- A list of strings between brackets leads to its words. -/
theorem valueLeads_bracketed {items : List Value} (hne : items ≠ [])
    (hitems : ∀ v ∈ items, ∃ s, v = .str s) {text : List Char}
    (h : bracketed 0 items = .ok text) :
    ValueLeads true 0 True (' ' :: text) (bracketWords items) := by
  obtain ⟨texts, htexts, h⟩ := Except.bind_eq_ok_iff.1 h
  cases h
  -- Strings are written without a fault, and plain only where they are no marks between brackets.
  have hmembers : List.Forall₂ (ScalarText true) texts (items.map (wordOf .bracket)) := by
    rw [Except.mapM_eq_ok_iff] at htexts
    clear hne h
    induction htexts with
    | nil => exact .nil
    | @cons v t vs ts ht hts ih =>
      obtain ⟨s, rfl⟩ := hitems v List.mem_cons_self
      cases ht
      exact .cons (scalarText_string .bracket (by decide) s.toList)
        (ih fun u hu => hitems u (List.mem_cons_of_mem _ hu))
  have htexts' : texts ≠ [] := by
    rintro rfl
    exact hne (List.map_eq_nil_iff.1 (List.forall₂_nil_left_iff.1 hmembers))
  refine ⟨⟨' ', _, rfl, rfl⟩, ?_, ?_⟩
  · have hwords : .streamEnd ∉ (items.map (wordOf .bracket)).intersperse .flowEntry := by
      refine not_mem_intersperse (by decide) fun h => ?_
      obtain ⟨v, hv, hword⟩ := List.mem_map.1 h
      exact wordOf_ne .bracket v hword
    simp [bracketWords, hwords]
  · intro s rest base ws h hrest hws
    have htail : ∀ l : List Char, l ++ ']' :: rest = l ++ [']'] ++ rest := by simp
    have hinside (t : Scanner) (ht : t.Inside (List.intercalate [',', ' '] texts ++ [']'] ++ rest)
        (((0 : Nat) : Int) :: base) (ws ++ [.flowSequenceStart])) :
        Leads (2 * texts.length) True t (Left · rest 0 base (ws ++ bracketWords items)) := by
      rw [← htail] at ht
      refine (leads_members (n := 0) hmembers htexts' ht).weaken le_rfl Iff.rfl fun u hu => ?_
      simpa [bracketWords] using hu
    refine ((leads_opening squareBrackets_mem h).bind hinside).weaken ?_ (by simp) fun t ht => ht
    have hlength := length_le_intercalate hmembers
    simp only [List.length_append, List.length_cons, List.length_nil]
    omega

/-- An entry with a list of strings between brackets has no key but its own. -/
theorem entryFits_strings_iff {k : String} {items : List Value}
    (hitems : ∀ v ∈ items, ∃ s, v = .str s) : EntryFits (.str k, .list items) ↔ Fits k := by
  have hnames : ∀ j ∈ names (.list items), Fits j := by
    intro j hj
    obtain ⟨u, hu, hj⟩ := mem_namesOfItems.1 hj
    obtain ⟨s, rfl⟩ := hitems u hu
    cases hj
  rw [EntryFits, and_iff_left hnames]
  exact ⟨fun h => h k rfl, fun h j hj => by cases hj; exact h⟩

theorem lineLeads_inlineEntry {k : String} (hk : isSimpleName k = true) {items : List Value}
    (hne : items ≠ []) (hitems : ∀ v ∈ items, ∃ s, v = .str s) {l : List Char}
    (h : inlineEntry (.str k) items = .ok l) :
    LineLeads .blockMappingStart 0 (EntryFits (.str k, .list items)) l
      (.key :: wordOf .key (.str k) :: .value :: bracketWords items) := by
  obtain ⟨key, hkey, h⟩ := Except.bind_eq_ok_iff.1 h
  obtain ⟨text, htext, h⟩ := Except.bind_eq_ok_iff.1 h
  cases h
  cases hkey
  have hleads := lineLeads_simpleName hk (valueLeads_bracketed hne hitems htext)
  rw [and_true] at hleads
  rw [entryFits_strings_iff hitems, List.append_assoc]
  exact hleads

/-- A line of the outermost mapping leads to its words if its keys fit. -/
theorem lineLeads_topLine {inline : List String} {entries : List (Value × Value)}
    (hdata : TopData inline entries) {e : Value × Value} (he : e ∈ entries) {l : List Char}
    (h : topLine inline e = .ok l) :
    LineLeads .blockMappingStart 0 (EntryFits e) l (topWords inline e) := by
  have hv := hdata.data e he
  rcases top_cases inline (hdata.keys e he) with
    ⟨k, items, rfl, hne, hmem, hline, hwords⟩ | ⟨⟨k, v, rfl⟩, hline, hwords⟩
  · rw [hline] at h
    rw [hwords]
    exact lineLeads_inlineEntry (hdata.simple k hmem) hne
      (hdata.members _ he k items rfl hmem) h
  · rw [hline] at h
    rw [hwords]
    exact lineLeads_entryLine (fun _ _ htext => leads_of_data hv htext) h

/-- The text of the outermost mapping leads to its words if its keys fit. -/
theorem lineLeads_top {inline : List String} {entries : List (Value × Value)} (hne : entries ≠ [])
    (hdata : TopData inline entries) {text : List Char}
    (h : renderBody inline entries = .ok text) :
    LineLeads .blockMappingStart 0 (∀ e ∈ entries, EntryFits e) text
      (entries.flatMap (topWords inline)) := by
  obtain ⟨ls, hls, rfl⟩ := exists_lines_of_renderBody hne h
  exact lineLeads_mapM (by decide) hne (fun e he l hl => lineLeads_topLine hdata he hl) hls

/-- From the start, the text of the outermost mapping leads past it. -/
theorem leads_top {inline : List String} {entries : List (Value × Value)} (hne : entries ≠ [])
    (hdata : TopData inline entries) {text rest : List Char}
    (h : renderBody inline entries = .ok text) (hrest : Ends rest) :
    Leads (text ++ rest).length (∀ e ∈ entries, EntryFits e) { cursor := .ofText (text ++ rest) }
      (Left · rest 0 [-1] (.blockMappingStart :: entries.flatMap (topWords inline))) := by
  have hleads := lineLeads_top hne hdata h
  obtain ⟨ks, hks, hturn⟩ := turn_sameLine (s := { cursor := .ofText (text ++ rest) }) (n := 0)
    (by simp) rfl (hleads.start rest).token
    (.inr (show (-1 : Int) ≤ ((0 : Nat) : Int) + ((0 : Nat) : Int) by decide))
  obtain rfl := List.subset_nil.1 hks
  have hready : Ready
      { cursor := (Cursor.ofText (text ++ rest)).along 0 (text ++ rest), keyStarts := [] }
      (text ++ rest) 0 (-1 :: []) [] :=
    ⟨rfl, rfl, rfl, rfl, rfl, rfl, rfl, rfl⟩
  exact (hleads.leads rfl hturn hready (by decide) (hrest.follows 0) (by simp)).weaken
    (by simp) Iff.rfl fun t ht => ht

theorem run_done {s : Scanner} (h : s.done = true) (fuel given : Nat) :
    run (fuel + 1) given s = (s.tokens.toList, none) := by
  rw [run, if_pos h]

/-- A fault ends the tokens, of which some may be lost. -/
theorem run_stuck {s : Scanner} (h : s.Stuck) (fuel given : Nat) :
    ∃ n f, run (fuel + 1) given s = (s.tokens.toList.take n, some f) := by
  obtain ⟨f, hturn⟩ := h.fault
  rw [run, h.done, if_neg Bool.false_ne_true]
  rw [turn] at hturn
  cases hdrop : s.dropStale with
  | error g => exact ⟨given, g, rfl⟩
  | ok t =>
    rw [hdrop] at hturn
    dsimp only
    rw [show t.fetch = .error f from hturn]
    -- Dropping key starts adds no token, so those before the fault are tokens of the scanner.
    have htokens : t.tokens = s.tokens := by
      rw [dropStale] at hdrop
      split at hdrop
      · cases hdrop
      · cases hdrop
        rfl
    exact ⟨t.released, f, by rw [htokens]⟩

end Scanner

variable {inline : List String} {entries : List (Value × Value)} {text rest : List Char}

/-- **A mapping whose keys fit is cut into its tokens.** -/
theorem tokenize_eq (hne : entries ≠ []) (hdata : TopData inline entries)
    (h : renderBody inline entries = .ok text) (hrest : Ends rest)
    (hfits : ∀ e ∈ entries, EntryFits e) :
    ∃ tokens, tokenize (text ++ rest) = (tokens, none) ∧ tokens.map Token.word =
      .blockMappingStart :: entries.flatMap (topWords inline) ++ [.blockEnd, .streamEnd] := by
  obtain ⟨n, t, hn, hruns, ⟨-, ht⟩ | ⟨hnot, -⟩⟩ := Scanner.leads_top hne hdata h hrest
  · obtain ⟨u, hturn, hdone, hwords⟩ := Scanner.turn_end ht.paused hrest
    have hruns' := hruns.trans (.head ht.paused.done hturn (.refl u))
    obtain ⟨given, hrun⟩ := Scanner.run_of_runs hruns' ((text ++ rest).length - n + 1) 0
    refine ⟨u.tokens.toList, ?_, ?_⟩
    · rw [tokenize, show (text ++ rest).length + 2 =
        n + (0 + 1) + ((text ++ rest).length - n + 1) by omega, hrun, Scanner.run_done hdone]
    · show u.words = _
      rw [hwords, ht.closed (-1) (by decide), Scanner.closeAll_of_lt (by decide),
        Scanner.closeAll_of_le le_rfl]
      simp
  · exact absurd hfits hnot

/-- A mapping with a key that does not fit cannot be cut into tokens. -/
theorem tokenize_fault (hne : entries ≠ []) (hdata : TopData inline entries)
    (h : renderBody inline entries = .ok text) (hrest : Ends rest)
    (hfits : ¬∀ e ∈ entries, EntryFits e) :
    ∃ tokens f, tokenize (text ++ rest) = (tokens, some f) ∧
      .streamEnd ∉ tokens.map Token.word := by
  obtain ⟨n, t, hn, hruns, ⟨hall, -⟩ | ⟨-, ht⟩⟩ := Scanner.leads_top hne hdata h hrest
  · exact absurd hall hfits
  · obtain ⟨given, hrun⟩ := Scanner.run_of_runs hruns ((text ++ rest).length - n + 1 + 1) 0
    obtain ⟨k, f, hstuck⟩ := Scanner.run_stuck ht ((text ++ rest).length - n + 1) given
    refine ⟨_, f, by
      rw [tokenize, show (text ++ rest).length + 2 =
        n + ((text ++ rest).length - n + 1 + 1) by omega, hrun, hstuck],
        fun hmem => ht.words ?_⟩
    rw [List.map_take] at hmem
    exact List.mem_of_mem_take hmem

end Storyline.Yaml
