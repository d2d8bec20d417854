import Storyline.Proofs.Yaml.Steps
import Storyline.Proofs.Yaml.Rows
import Storyline.Proofs.Yaml.Size

/-!
# Reading a written mapping

What a mapping that was written is read back as, whether or not a line break is left at its end: the
same entries with every string read back, or a fault if some key is too long to stand on one line
with its colon.

Not every string comes back as it is. Line breaks are escaped only if a line feed or a carriage
return is among them; a next line by itself stands between single quotes, where it is read as the
break of a line. And a key of few characters may be long once they are escaped.

## Main definitions

* `Survives`: a string without a next line between single quotes

## Main results

* `exists_renderBody_iff`: which mappings can be written
* `load_renderBody`, `load_render`: what is read back if every key fits
* `exists_error_load`, `exists_error_load_render`: the fault if some key does not fit
* `render_strings`: which strings are read back as themselves
-/

namespace Storyline.Yaml

variable {inline : List String} {entries : List (Value × Value)} {text rest : List Char}

/-! ## Writing -/

theorem countable_strings {items : List Value} (h : ∀ v ∈ items, ∃ s, v = .str s) :
    Countable (.list items) := by
  rw [countable_list]
  intro v hv n hn
  obtain ⟨s, rfl⟩ := h v hv
  cases List.mem_singleton.1 hn

theorem exists_inlineEntry {k : String} {items : List Value} (h : ∀ v ∈ items, ∃ s, v = .str s) :
    ∃ l, inlineEntry (.str k) items = .ok l := by
  obtain ⟨texts, htexts⟩ : ∃ texts, items.mapM (scalarForm .bracket (0 + 4)) = .ok texts := by
    rw [Except.exists_mapM_iff]
    intro v hv
    obtain ⟨s, rfl⟩ := h v hv
    exact ⟨_, rfl⟩
  have hitems : bracketed 0 items = .ok ('[' :: List.intercalate [',', ' '] texts ++ [']']) :=
    Except.bind_eq_ok_iff.2 ⟨texts, htexts, rfl⟩
  rw [inlineEntry, hitems]
  exact ⟨_, rfl⟩

theorem exists_topLine_iff (hdata : TopData inline entries) {e : Value × Value}
    (he : e ∈ entries) : (∃ l, topLine inline e = .ok l) ↔ Countable e.2 := by
  have hv := hdata.data e he
  rcases top_cases inline (hdata.keys e he) with
    ⟨k, items, rfl, -, hmem, hline, -⟩ | ⟨⟨k, v, rfl⟩, hline, -⟩
  · have hitems := hdata.members _ he k items rfl hmem
    rw [hline]
    exact iff_of_true (exists_inlineEntry hitems) (countable_strings hitems)
  · rw [hline]
    exact exists_entryLine_iff fun fresh => exists_valueText_iff hv

/-- **A mapping can be written exactly when its integers are short enough.** -/
theorem exists_renderBody_iff (hdata : TopData inline entries) :
    (∃ text, renderBody inline entries = .ok text) ↔ Countable (.map entries) := by
  rw [countable_map hdata.keys, renderBody]
  split
  · next hempty =>
    rw [List.isEmpty_iff.1 hempty]
    exact ⟨fun _ _ => by rintro ⟨⟩, fun _ => ⟨_, rfl⟩⟩
  · refine (Except.exists_bind_iff fun ls => ⟨_, rfl⟩).trans ?_
    rw [Except.exists_mapM_iff]
    refine forall₂_congr fun e he => ?_
    rw [← exists_topLine_iff hdata he, topEntry_eq_map]
    cases topLine inline e with
    | error f =>
      constructor <;> rintro ⟨_, ⟨⟩⟩
    | ok l => exact ⟨fun _ => ⟨l, rfl⟩, fun _ => ⟨[l], rfl⟩⟩

/-! ## Reading -/

theorem isReadable_of_isShown {c : Char} (h : isShown c = true) : isReadable c = true := by
  simp only [isShown, isReadable, Bool.or_eq_true, Bool.and_eq_true, decide_eq_true_eq, beq_iff_eq,
    bne_iff_ne] at h ⊢
  rcases h with ((rfl | h) | h) | ⟨h, -⟩
  · decide
  all_goals omega

theorem find?_unreadable (h : AllShown text) :
    (text.zipIdx.find? fun p => !isReadable p.1) = none := by
  rw [List.find?_eq_none]
  rintro ⟨c, i⟩ hmem
  have hc := isReadable_of_isShown (h c (List.fst_mem_of_mem_zipIdx hmem))
  simp [hc]

/-- The value of an entry of the outermost mapping has its tree at a depth of the length of the
text. -/
theorem toValue_of_topLine (hdata : TopData inline entries) {e : Value × Value} (he : e ∈ entries)
    {l : List Char} (h : topLine inline e = .ok l) {names : Names} {n : Node} (hn : Spells e.2 n)
    {depth : Nat} (hdepth : l.length ≤ depth) :
    n.toValue names (depth + 2) = .ok (reread e.2) := by
  have hv := hdata.data e he
  rcases top_cases inline (hdata.keys e he) with
    ⟨k, items, rfl, -, hmem, -, -⟩ | ⟨⟨k, v, rfl⟩, hline, -⟩
  · -- Between brackets there are strings alone, so the depth is two.
    have hitems := hdata.members _ he k items rfl hmem
    obtain ⟨ns, line, rfl, hns⟩ := forall₂_of_spells_list hn
    refine toValue_list names ?_ line
    rw [List.forall₂_iff_zip] at hns ⊢
    refine ⟨hns.1, fun {v m} hp => ?_⟩
    obtain ⟨s, rfl⟩ := hitems v (List.of_mem_zip hp).1
    have hspells := hns.2 hp
    refine toValue_scalar names hspells (fun n hn => ?_) ?_ depth
    · cases List.mem_singleton.1 hn
    · cases hspells
      rfl
  · rw [hline] at h
    obtain ⟨fresh, text, htext, hlength⟩ := exists_of_entryLine h
    exact toValue_of_valueText hv htext hn (by omega)

theorem toValue_root (hne : entries ≠ []) (hdata : TopData inline entries)
    (h : renderBody inline entries = .ok text) {names : Names} {root : Node}
    (hroot : Spells (.map entries) root) {depth : Nat} (hdepth : text.length + 3 ≤ depth) :
    root.toValue names depth = .ok (reread (.map entries)) := by
  obtain ⟨ls, hls, rfl⟩ := exists_lines_of_renderBody hne h
  obtain ⟨d, rfl⟩ := Nat.exists_eq_add_of_le' (le_trans (Nat.le_add_left 3 _) hdepth)
  obtain ⟨ns, line, rfl, hns⟩ := forall₂_of_spells_map hroot
  refine toValue_map names hdata.keys hns ?_ line
  rw [List.forall₂_iff_zip] at hns ⊢
  refine ⟨hns.1, fun {e m} hp => ?_⟩
  have hmem := (List.of_mem_zip hp).1
  obtain ⟨l, hl, hline⟩ := Except.exists_mem_of_mapM hls hmem
  have hlength : l.length ≤ (joinLines 0 ls).length := length_le_joinLines hl
  exact toValue_of_topLine hdata hmem hline (hns.2 hp).2 (by omega)

theorem allShown_of_ends (h : Ends rest) : AllShown rest := by
  rcases h with rfl | rfl
  · exact List.forall_mem_nil _
  · exact allShown_newLine 0

/-- **A mapping whose keys fit is read back**, every string as it is read back. -/
theorem load_renderBody (hne : entries ≠ []) (hdata : TopData inline entries)
    (h : renderBody inline entries = .ok text) (hrest : Ends rest)
    (hfits : ∀ e ∈ entries, EntryFits e) :
    load (text ++ rest) = .ok (reread (.map entries)) := by
  obtain ⟨tokens, htokens, hwords⟩ := tokenize_eq hne hdata h hrest hfits
  obtain ⟨root, hroot, hread⟩ := Node.ofTokens?_eq hdata hwords
  have hcount : Countable (.map entries) := (exists_renderBody_iff hdata).1 ⟨text, h⟩
  -- The root is a collection, so it is what the first level leaves.
  have hpending : ∀ m ∈ [root], Pending m := by
    intro m hm
    rw [List.mem_singleton.1 hm]
    refine ⟨⟨.map entries, .map hdata.keys hdata.data, hcount, hroot⟩, ?_⟩
    cases hroot
    rfl
  have hmeet : meet [] root = .ok [root] := by
    rw [meet, if_pos (hpending root List.mem_cons_self).2]
  rw [load, find?_unreadable ((allShown_of_renderBody hne hdata.isData h).append
    (allShown_of_ends hrest))]
  dsimp only
  rw [htokens]
  dsimp only
  rw [hread]
  have hdepth : text.length + 3 ≤ 4 * (text ++ rest).length + 8 := by
    rw [List.length_append]
    omega
  generalize 4 * (text ++ rest).length + 8 = depth at hdepth
  show (meet [] root >>= fun first => checkLevels [] depth first >>= fun _ =>
    root.toValue [] depth) = _
  rw [hmeet]
  show (checkLevels [] depth [root] >>= fun _ => root.toValue [] depth) = _
  rw [checkLevels_spells [] hpending]
  exact toValue_root hne hdata h hroot hdepth

/-- A mapping with a key that does not fit cannot be read back. -/
theorem exists_error_load (hne : entries ≠ []) (hdata : TopData inline entries)
    (h : renderBody inline entries = .ok text) (hrest : Ends rest)
    (hfits : ¬∀ e ∈ entries, EntryFits e) : ∃ f, load (text ++ rest) = .error f := by
  obtain ⟨tokens, fault, htokens, hwords⟩ := tokenize_fault hne hdata h hrest hfits
  obtain ⟨f, hread⟩ := exists_error_ofTokens? hwords (some fault)
  refine ⟨f, ?_⟩
  rw [load, find?_unreadable ((allShown_of_renderBody hne hdata.isData h).append
    (allShown_of_ends hrest))]
  dsimp only
  rw [htokens]
  dsimp only
  rw [hread]
  rfl

theorem render_eq_ok_iff : render inline entries = .ok text ↔
    ∃ body, renderBody inline entries = .ok body ∧ text = body ++ newLine 0 := by
  rw [render, Except.bind_eq_ok_iff]
  exact exists_congr fun body => and_congr_right fun _ =>
    ⟨fun h => (Except.ok.inj h).symm, fun h => h ▸ rfl⟩

theorem load_render (hne : entries ≠ []) (hdata : TopData inline entries)
    (h : render inline entries = .ok text) (hfits : ∀ e ∈ entries, EntryFits e) :
    load text = .ok (reread (.map entries)) := by
  obtain ⟨body, hbody, rfl⟩ := render_eq_ok_iff.1 h
  exact load_renderBody hne hdata hbody (.inr rfl) hfits

theorem exists_error_load_render (hne : entries ≠ []) (hdata : TopData inline entries)
    (h : render inline entries = .ok text) (hfits : ¬∀ e ∈ entries, EntryFits e) :
    ∃ f, load text = .error f := by
  obtain ⟨body, hbody, rfl⟩ := render_eq_ok_iff.1 h
  exact exists_error_load hne hdata hbody (.inr rfl) hfits

/-! ## Strings that survive -/

/-- Whether a string is read back as itself: it holds no next line, unless between double quotes,
where that is escaped. -/
def Survives (s : String) : Prop :=
  styleOf .value s.toList = .single → '\u0085' ∉ s.toList

theorem rereadString_eq_self_iff {s : String} : rereadString s = s ↔ Survives s := by
  rw [rereadString, String.ext_iff, String.toList_ofList, rereadChars, Survives]
  split
  · next hsingle =>
    rcases styleOf_cases .value s.toList with h | ⟨-, -, hfeed, -⟩ | ⟨h, -⟩
    · exact absurd (hsingle.symm.trans h) (by decide)
    · rw [foldBreaks_eq_self_iff hfeed, forall_prop_of_true hsingle]
    · exact absurd (hsingle.symm.trans h) (by decide)
  · next hsingle => exact iff_of_true rfl fun h => absurd h hsingle

section

variable (k v : String)

theorem topData_strings : TopData [] [(.str k, .str v)] where
  keys := List.forall_mem_singleton.2 ⟨k, rfl⟩
  data := List.forall_mem_singleton.2 (.str v)
  simple := List.forall_mem_nil _
  members := fun _ _ _ _ _ h => absurd h List.not_mem_nil
  room := show 2 * 1 ≤ callRoom by decide

theorem entryFits_string_iff : EntryFits (.str k, .str v) ↔ Fits k :=
  ⟨fun h => h.1 k rfl, fun h => ⟨fun j hj => by cases hj; exact h, List.forall_mem_nil _⟩⟩

theorem exists_render_strings : ∃ text, render [] [(.str k, .str v)] = .ok text := by
  have hcountable : Countable (.map [(.str k, .str v)]) := by
    intro n hn
    simp [scalars, scalarsOfEntries] at hn
  obtain ⟨body, hbody⟩ := (exists_renderBody_iff (topData_strings k v)).2 hcountable
  exact ⟨_, render_eq_ok_iff.2 ⟨body, hbody, rfl⟩⟩

/-- **A string under a key is read back as itself** exactly if both survive and the key fits. Every
other string or key is lost: it is written, but read as something else or not at all. -/
theorem render_strings : ∃ text, render [] [(.str k, .str v)] = .ok text ∧
    (load text = .ok (.map [(.str k, .str v)]) ↔ Fits k ∧ Survives k ∧ Survives v) := by
  have hdata := topData_strings k v
  obtain ⟨text, hrender⟩ := exists_render_strings k v
  refine ⟨text, hrender, ?_⟩
  have hfits : (∀ e ∈ [((.str k : Value), (.str v : Value))], EntryFits e) ↔ Fits k := by
    rw [List.forall_mem_singleton, entryFits_string_iff]
  by_cases hk : Fits k
  · have hload := load_render (List.cons_ne_nil _ _) hdata hrender (hfits.2 hk)
    have hreread : reread (.map [(.str k, .str v)]) =
        .map [(.str (rereadString k), .str (rereadString v))] := rfl
    -- Each string is read back by itself, so the entry is the same if and only if both are.
    rw [hload, hreread, and_iff_right hk, ← rereadString_eq_self_iff, ← rereadString_eq_self_iff]
    simp
  · obtain ⟨f, hload⟩ := exists_error_load_render (List.cons_ne_nil _ _) hdata hrender
      (mt hfits.1 hk)
    rw [hload]
    exact iff_of_false (by simp) fun h => hk h.1

end

/-- A key of 103 characters, one of them a control character, because of which the others are
escaped, each by ten. -/
def escapedKey : String :=
  String.ofList ('\x01' :: List.replicate 102 (Char.ofNat 0x10000))

theorem not_fits_escapedKey : ¬Fits escapedKey := by
  have hchars : escapedKey.toList = '\x01' :: List.replicate 102 (Char.ofNat 0x10000) :=
    String.toList_ofList
  have hsimple : isSimpleName escapedKey = true := by
    rw [isSimpleName, hchars]
    decide +kernel
  have hlength : Scanner.keyLimit < (stringText .key 0 escapedKey.toList).length := by
    rw [hchars]
    decide +kernel
  exact fun h => not_le.2 hlength (h hsimple)

/-- A next line is read back as a space, and a key that is long once it is escaped is not read back
at all. -/
theorem render_strings_lost :
    (render [] [(.str "k", .str "a\u0085b")] = .ok "k: 'a\u0085  b'\n".toList ∧
      load "k: 'a\u0085  b'\n".toList = .ok (.map [(.str "k", .str "a b")])) ∧
      ∃ text f, render [] [(.str escapedKey, .str "v")] = .ok text ∧ load text = .error f := by
  have hrender : render [] [(.str "k", .str "a\u0085b")] = .ok "k: 'a\u0085  b'\n".toList := rfl
  refine ⟨⟨hrender, ?_⟩, ?_⟩
  · have hfits : ∀ e ∈ [((.str "k" : Value), (.str "a\u0085b" : Value))], EntryFits e :=
      List.forall_mem_singleton.2 ((entryFits_string_iff _ _).2 fun _ => by decide)
    rw [load_render (List.cons_ne_nil _ _) (topData_strings _ _) hrender hfits]
    rfl
  · obtain ⟨text, htext⟩ := exists_render_strings escapedKey "v"
    obtain ⟨f, hload⟩ := exists_error_load_render (List.cons_ne_nil _ _) (topData_strings _ _)
      htext fun h => not_fits_escapedKey
        ((entryFits_string_iff _ _).1 (List.forall_mem_singleton.1 h))
    exact ⟨text, f, htext, hload⟩

end Storyline.Yaml
