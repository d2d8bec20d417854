import Storyline.Proofs.Yaml.Scalar

/-!
# The characters of written scalars

Whatever a string holds, its written text has only characters that are shown, and no line feed.

## Main results

* `mem_stringText`: the characters of a written string
* `mem_scalarForm`: the characters of a written scalar
* `stringText_indent`: the indentation of further lines does not matter for one line
-/

namespace Storyline.Yaml

theorem mem_singleChars {indent : Nat} {c : Char} {s : List Char}
    (h : c ∈ singleChars indent s) : c ∈ s ∨ c = '\'' ∨ c = ' ' ∧ s.any isWrittenBreak = true := by
  induction s with
  | nil => cases h
  | cons d s ih =>
    have hrest (h : c ∈ singleChars indent s) :
        c ∈ d :: s ∨ c = '\'' ∨ c = ' ' ∧ (d :: s).any isWrittenBreak = true := by
      rcases ih h with h | h | ⟨h, hbreak⟩
      · exact .inl (List.mem_cons_of_mem d h)
      · exact .inr (.inl h)
      · exact .inr (.inr ⟨h, by rw [List.any_cons, hbreak, Bool.or_true]⟩)
    rw [singleChars] at h
    split at h
    · rcases List.mem_cons.1 h with h | h
      · exact .inr (.inl h)
      · rcases List.mem_cons.1 h with h | h
        · exact .inr (.inl h)
        · exact hrest h
    · split at h
      · next hbreak =>
        rw [Bool.and_eq_true] at hbreak
        rcases List.mem_cons.1 h with rfl | h
        · exact .inl List.mem_cons_self
        · rcases List.mem_append.1 h with h | h
          · refine .inr (.inr ⟨List.eq_of_mem_replicate h, ?_⟩)
            rw [List.any_cons, hbreak.1, Bool.true_or]
          · exact hrest h
      · rcases List.mem_cons.1 h with rfl | h
        · exact .inl List.mem_cons_self
        · exact hrest h

/-- Whether a character is shown and no line break. -/
def isPlainShown (c : Char) : Bool :=
  isShown c && !isWrittenBreak c

theorem isPlainShown_of_isShownInDouble {c : Char} (h : isShownInDouble c = true) :
    isPlainShown c = true := by
  have hne {d : Char} (hd : isShownInDouble d = false) : c ≠ d := by
    rintro rfl
    rw [hd] at h
    cases h
  have hmark : c.toNat ≠ 0xFEFF := by
    intro hc
    refine hne (d := '\uFEFF') (by decide) ?_
    rw [← Char.ofNat_toNat c, hc]
  rw [isPlainShown, Bool.and_eq_true, Bool.not_eq_true', isWrittenBreak, isShown]
  rw [isShownInDouble, Bool.and_eq_true] at h
  simp only [Bool.or_eq_false_iff, beq_eq_false_iff_ne]
  refine ⟨?_, ⟨⟨hne (by decide), hne (by decide)⟩, hne (by decide)⟩, hne (by decide)⟩
  simp only [Bool.or_eq_true, Bool.and_eq_true, decide_eq_true_eq, beq_iff_eq, bne_iff_ne] at *
  omega

theorem isPlainShown_of_mem_capitalHex {width n : Nat} {c : Char} (h : c ∈ capitalHex width n) :
    isPlainShown c = true := by
  rw [capitalHex, Text.hexDigits, List.map_append, List.mem_append, List.mem_map, List.mem_map]
    at h
  rcases h with ⟨d, hd, rfl⟩ | ⟨d, hd, rfl⟩
  · rw [List.eq_of_mem_replicate hd]
    decide
  · obtain ⟨k, hk, rfl⟩ := hexDigit_of_mem hd
    interval_cases k <;> decide

theorem isPlainShown_of_mem_doubleChar {c d : Char} (h : d ∈ doubleChar c) :
    isPlainShown d = true := by
  unfold doubleChar at h
  split at h
  · next hshown =>
    rw [List.mem_singleton.1 h]
    exact isPlainShown_of_isShownInDouble hshown
  · split at h
    · next l hl =>
      have hall : escapeLetters.all (fun p => isPlainShown p.2) = true := by decide
      rcases List.mem_cons.1 h with rfl | h
      · decide
      · rw [List.mem_singleton.1 h]
        obtain ⟨l₁, l₂, hmem, -⟩ := List.lookup_eq_some_iff.1 hl
        exact List.all_eq_true.1 hall (c, l) (by rw [hmem]; simp)
    · have hhex {letter : Char} {width : Nat} (hletter : isPlainShown letter = true)
          (h : d ∈ '\\' :: letter :: capitalHex width c.toNat) : isPlainShown d = true := by
        rcases List.mem_cons.1 h with rfl | h
        · decide
        · rcases List.mem_cons.1 h with rfl | h
          · exact hletter
          · exact isPlainShown_of_mem_capitalHex h
      dsimp only at h
      split at h
      · exact hhex (by decide) h
      · split at h
        · exact hhex (by decide) h
        · exact hhex (by decide) h

/-- **The characters of a written string** are shown, and none is a line feed. Where one is a line
break, the string has more than one line. -/
theorem mem_stringText {place : Place} {indent : Nat} {s : List Char} {c : Char}
    (h : c ∈ stringText place indent s) :
    isShown c = true ∧ c ≠ '\n' ∧ (isWrittenBreak c = true → isMultiline s = true) := by
  have hplain {d : Char} (hd : isPlainShown d = true) :
      isShown d = true ∧ d ≠ '\n' ∧ (isWrittenBreak d = true → isMultiline s = true) := by
    rw [isPlainShown, Bool.and_eq_true, Bool.not_eq_true'] at hd
    refine ⟨hd.1, ?_, fun h => ?_⟩
    · rintro rfl
      exact absurd hd.2 (by decide)
    · rw [hd.2] at h
      cases h
  have hquoted {quote : Char} (hquote : isPlainShown quote = true) {w : List Char}
      (h : c ∈ quote :: w ++ [quote]) (hw : c ∈ w → isShown c = true ∧ c ≠ '\n' ∧
        (isWrittenBreak c = true → isMultiline s = true)) :
      isShown c = true ∧ c ≠ '\n' ∧ (isWrittenBreak c = true → isMultiline s = true) := by
    rw [List.mem_append, List.mem_cons, List.mem_singleton] at h
    rcases h with (rfl | h) | rfl
    · exact hplain hquote
    · exact hw h
    · exact hplain hquote
  rw [stringText] at h
  rcases styleOf_cases place s with hstyle | ⟨hstyle, hsingle, hfeed, -⟩ | ⟨hstyle, -, hallow⟩
  · rw [hstyle] at h
    refine hquoted (by decide) h fun h => ?_
    obtain ⟨d, -, hd⟩ := List.mem_flatMap.1 h
    exact hplain (isPlainShown_of_mem_doubleChar hd)
  · rw [hstyle] at h
    refine hquoted (by decide) h fun h => ?_
    rcases mem_singleChars h with h | rfl | ⟨rfl, -⟩
    · have hshown : isShown c = true := isShown_of_allowsSingle hsingle h
      refine ⟨hshown, ?_, fun hbreak => List.any_eq_true.2 ⟨c, h, hbreak⟩⟩
      rintro rfl
      exact hfeed h
    · exact hplain (by decide)
    · exact hplain (by decide)
  · rw [hstyle] at h
    have hne : s ≠ [] := by
      rintro rfl
      cases h
    obtain ⟨hshown, hbreak⟩ := (plainText_of_allowsPlain hallow hne).shown c h
    exact hplain (by rw [isPlainShown, hshown, hbreak]; rfl)

/-- A string on one line is written on one line. -/
theorem isInline_of_mem_stringText {place : Place} {indent : Nat} {s : List Char}
    (hs : isMultiline s = false) {c : Char} (h : c ∈ stringText place indent s) :
    isInline c = true := by
  obtain ⟨hshown, -, hbreak⟩ := mem_stringText h
  have hmark : c ≠ '\uFEFF' := by
    rintro rfl
    exact absurd hshown (by decide)
  rw [isInline, Bool.not_eq_true', beq_eq_false_iff_ne.2 hmark, Bool.or_false]
  rcases isShown_cases hshown with rfl | h | ⟨-, h⟩
  · decide
  · rw [hbreak h] at hs
    cases hs
  · exact h

/-- The indentation of further lines does not matter to a string on one line. -/
theorem stringText_indent {s : List Char} (hs : isMultiline s = false) (place : Place)
    (indent : Nat) : stringText place indent s = stringText place 0 s := by
  have hsingle : singleChars indent s = singleChars 0 s := by
    rw [isMultiline] at hs
    induction s with
    | nil => rfl
    | cons c s ih =>
      rw [List.any_cons, Bool.or_eq_false_iff] at hs
      rw [singleChars, singleChars, ih hs.2, hs.1]
      rfl
  rw [stringText, stringText, hsingle]

/-- The characters of a written scalar are shown, and none is a line feed. -/
theorem mem_scalarForm {place : Place} {indent : Nat} {v : Value} {text : List Char}
    (htext : scalarForm place indent v = .ok text) {c : Char} (h : c ∈ text) :
    isShown c = true ∧ c ≠ '\n' := by
  have hfigures {t : List Char} (ht : Figures t) (hc : c ∈ t) : isShown c = true ∧ c ≠ '\n' := by
    have hmark := isMark_of_mem_figures (ht.figure c hc)
    obtain ⟨-, -, -, -, -, hbreak, hshown⟩ := isMark_eq_false hmark
    refine ⟨hshown, ?_⟩
    rintro rfl
    exact absurd hbreak (by decide)
  cases v with
  | bool b =>
    cases htext
    have hall : ∀ b : Bool, (if b then "true" else "false").toList.all
        (fun c => isShown c && c ≠ '\n') = true := by decide
    simpa using List.all_eq_true.1 (hall b) c h
  | int n =>
    rw [scalarForm, Number.writeInt] at htext
    split at htext
    · cases htext
    · cases htext
      rw [String.toList_ofList] at h
      exact hfigures (figures_intDigits n) h
  | float x =>
    cases htext
    exact hfigures (figures_render x) h
  | str s =>
    cases htext
    obtain ⟨hshown, hfeed, -⟩ := mem_stringText h
    exact ⟨hshown, hfeed⟩
  | _ =>
    cases htext
    have hall : "null".toList.all (fun c => isShown c && c ≠ '\n') = true := by decide
    simpa using List.all_eq_true.1 hall c h

end Storyline.Yaml
