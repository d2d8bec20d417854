import Storyline.Proofs.Yaml.Quoted

/-!
# Escapes read back

Between double quotes every character that is not shown is written as an escape: a letter for some
of them, the code point in hexadecimal digits for the others. Any string can be written so, and is
read back.

## Main results

* `hexNumber_capitalHex`: hexadecimal digits spell the number they are written for
* `escapeSequence_eq`: the escape of a character is read as the character
* `quoted_double`: what is written between double quotes for a string stands for the string
-/

namespace Storyline.Yaml

open Text

/-! ## Hexadecimal digits -/

theorem hexValue?_digitChar {n : Nat} (h : n < 16) :
    hexValue? n.digitChar.toUpper = some n := by
  interval_cases n <;> decide

theorem hexDigit_of_mem {n : Nat} {c : Char} (h : c ∈ Nat.toDigits 16 n) :
    ∃ d < 16, c = d.digitChar := by
  induction n using Nat.strong_induction_on with
  | _ n ih =>
    rcases Nat.lt_or_ge n 16 with hn | hn
    · rw [Nat.toDigits_of_lt_base hn, List.mem_singleton] at h
      exact ⟨n, hn, h⟩
    · rw [Nat.toDigits_of_base_le (by decide) hn, List.mem_append] at h
      rcases h with h | h
      · exact ih (n / 16) (Nat.div_lt_self (by omega) (by decide)) h
      · exact ⟨n % 16, Nat.mod_lt n (by decide), List.mem_singleton.1 h⟩

theorem foldl_toDigits (n : Nat) :
    (Nat.toDigits 16 n).foldl (fun m c => 16 * m + (hexValue? c.toUpper).getD 0) 0 = n := by
  induction n using Nat.strong_induction_on with
  | _ n ih =>
    rcases Nat.lt_or_ge n 16 with hn | hn
    · rw [Nat.toDigits_of_lt_base hn, List.foldl_cons, List.foldl_nil, hexValue?_digitChar hn,
        Option.getD_some, Nat.mul_zero, Nat.zero_add]
    · rw [Nat.toDigits_of_base_le (by decide) hn, List.foldl_append,
        ih (n / 16) (Nat.div_lt_self (by omega) (by decide)), List.foldl_cons, List.foldl_nil,
        hexValue?_digitChar (Nat.mod_lt n (by decide)), Option.getD_some]
      exact Nat.div_add_mod n 16

theorem length_capitalHex {width n : Nat} (hwidth : 0 < width) (h : n < 16 ^ width) :
    (capitalHex width n).length = width := by
  have hle := (Nat.length_toDigits_le_iff (by decide) hwidth).2 h
  rw [capitalHex, hexDigits, List.length_map, List.length_append, List.length_replicate]
  omega

/-- Hexadecimal digits spell the number they are written for. -/
theorem ofDigits_capitalHex (width n : Nat) :
    ofDigits 16 ((capitalHex width n).map fun c => (hexValue? c).getD 0) = n := by
  have hzeros (k : Nat) : (List.replicate k '0').foldl
      (fun m c => 16 * m + (hexValue? c.toUpper).getD 0) 0 = 0 := by
    induction k with
    | zero => rfl
    | succ k ih => rwa [List.replicate_succ, List.foldl_cons]
  rw [ofDigits, capitalHex, hexDigits, List.map_map, List.foldl_map, List.foldl_append]
  dsimp only [Function.comp_apply]
  rw [hzeros, foldl_toDigits]

theorem isSome_hexValue? {width n : Nat} {c : Char} (h : c ∈ capitalHex width n) :
    (hexValue? c).isSome = true := by
  rw [capitalHex, hexDigits, List.map_append, List.mem_append, List.mem_map, List.mem_map] at h
  rcases h with ⟨d, hd, rfl⟩ | ⟨d, hd, rfl⟩
  · rw [List.eq_of_mem_replicate hd]
    rfl
  · obtain ⟨k, hk, rfl⟩ := hexDigit_of_mem hd
    rw [hexValue?_digitChar hk]
    rfl

theorem hexNumber_capitalHex {c : Cursor} {width n : Nat} {r : List Char}
    (h : c.rest = capitalHex width n ++ r) (hwidth : 0 < width) (hn : n < 16 ^ width) :
    badHex? width c = none ∧ hexNumber width c = n := by
  have hlength := length_capitalHex hwidth hn
  constructor
  · rw [badHex?, List.find?_eq_none]
    intro d hd
    obtain ⟨k, hk, rfl⟩ := List.mem_map.1 hd
    rw [List.mem_range, ← hlength] at hk
    rw [Cursor.peekAt, h, List.getElem?_append_left hk, List.getElem?_eq_getElem hk,
      Option.any_some, isSome_hexValue? (List.getElem_mem hk)]
    decide
  · rw [hexNumber, h, List.take_left' hlength, ofDigits_capitalHex]

/-! ## Escapes -/

/-- What is written after the backslash for a character. -/
def escapeOf (c : Char) : List Char :=
  (doubleChar c).drop 1

theorem escapedChar_toNat (ch : Char) (c : Cursor) : escapedChar ch.toNat c = .ok (ch, c) := by
  have hvalid : ch.toNat.isValidChar := ch.valid
  have hsurrogate : ¬ (0xD800 ≤ ch.toNat ∧ ch.toNat ≤ 0xDBFF) := by
    rcases hvalid with h | h <;> omega
  have hle : ch.toNat ≤ 0x10FFFF := by
    rcases hvalid with h | h <;> omega
  rw [escapedChar, if_neg (by simpa using fun h => not_le.1 fun h' => hsurrogate ⟨h, h'⟩)]
  dsimp only
  rw [charOfCode, if_neg (by omega), if_neg (by omega), if_pos hvalid, Char.ofNat_toNat]
  rfl

theorem escapeSequence_hex {ch letter : Char} {width : Nat} {c : Cursor} {r : List Char}
    (h : c.rest = letter :: capitalHex width ch.toNat ++ r)
    (hletter : List.lookup letter escapes = none)
    (hwidth : List.lookup letter codeWidths = some width) (hpos : 0 < width)
    (hch : ch.toNat < 16 ^ width) :
    escapeSequence c = .ok ([ch], c.steps (letter :: capitalHex width ch.toNat).length) := by
  have hpeek : c.peek = some letter := by
    rw [Cursor.peek, h]
    rfl
  have hstep : c.step.rest = capitalHex width ch.toNat ++ r := by
    rw [Cursor.rest_step, h]
    rfl
  obtain ⟨hbad, hnumber⟩ := hexNumber_capitalHex hstep hpos hch
  unfold escapeSequence
  rw [hpeek, Option.bind_some, hletter]
  dsimp only
  rw [Option.bind_some, hwidth]
  dsimp only
  rw [hbad]
  dsimp only
  rw [hnumber, escapedChar_toNat, List.length_cons, length_capitalHex hpos hch, Nat.add_comm,
    Cursor.steps_add]
  rfl

/-- The escape of a character is read as the character. -/
theorem escapeSequence_eq {ch : Char} (hch : isShownInDouble ch = false) {c : Cursor}
    {r : List Char} (h : c.rest = escapeOf ch ++ r) :
    doubleChar ch = '\\' :: escapeOf ch ∧
      escapeSequence c = .ok ([ch], c.steps (escapeOf ch).length) := by
  unfold escapeOf doubleChar at *
  rw [hch, if_neg Bool.false_ne_true] at *
  cases hl : List.lookup ch escapeLetters with
  | some l =>
    rw [hl] at h
    dsimp only at h ⊢
    refine ⟨rfl, ?_⟩
    have hback : List.lookup l escapes = some ch := by
      have hall : escapeLetters.all (fun p => List.lookup p.2 escapes == some p.1) = true := by
        decide
      obtain ⟨l₁, l₂, hmem, -⟩ := List.lookup_eq_some_iff.1 hl
      have := List.all_eq_true.1 hall (ch, l) (by rw [hmem]; simp)
      simpa using this
    have hpeek : c.peek = some l := by
      rw [Cursor.peek, h]
      rfl
    unfold escapeSequence
    rw [hpeek, Option.bind_some, hback]
    rfl
  | none =>
    -- Two, four or eight digits, the fewest that hold the code point.
    have hvalid : ch.toNat.isValidChar := ch.valid
    rw [hl] at h
    dsimp only at h ⊢
    split at h
    · next hn =>
      rw [if_pos hn]
      exact ⟨rfl, escapeSequence_hex h (by decide) rfl (by decide) (by omega)⟩
    · next hn =>
      rw [if_neg hn]
      split at h
      · next hn =>
        rw [if_pos hn]
        exact ⟨rfl, escapeSequence_hex h (by decide) rfl (by decide) (by omega)⟩
      · next hn =>
        rw [if_neg hn]
        refine ⟨rfl, escapeSequence_hex h (by decide) rfl (by decide) ?_⟩
        rcases hvalid with h | h <;> omega

/-! ## Strings between double quotes -/

/-- A text begins with spaces and goes on otherwise. -/
theorem exists_spaces (s : List Char) :
    ∃ n r, s = List.replicate n ' ' ++ r ∧ r.head? ≠ some ' ' := by
  induction s with
  | nil => exact ⟨0, [], rfl, by simp⟩
  | cons c s ih =>
    by_cases hc : c = ' '
    · obtain ⟨n, r, rfl, hr⟩ := ih
      exact ⟨n + 1, r, by rw [hc, List.replicate_succ, List.cons_append], hr⟩
    · exact ⟨0, c :: s, rfl, by simpa using hc⟩

theorem shownInDouble {c : Char} (h : isShownInDouble c = true) :
    isIndent c = false ∧ isBreak c = false ∧ c ≠ '"' ∧ c ≠ '\\' ∨ c = ' ' := by
  by_cases hspace : c = ' '
  · exact .inr hspace
  · have hne {d : Char} (hd : isShownInDouble d = false) : c ≠ d := by
      rintro rfl
      rw [hd] at h
      cases h
    refine .inl ⟨?_, ?_, hne (by decide), hne (by decide)⟩
    · rw [isIndent, quotedBreaks.isIndent, beq_eq_false_iff_ne.2 hspace,
        beq_eq_false_iff_ne.2 (hne (d := '\t') (by decide))]
      rfl
    · simp only [isBreak, Bool.or_eq_false_iff, beq_eq_false_iff_ne]
      exact ⟨⟨⟨⟨hne (by decide), hne (by decide)⟩, hne (by decide)⟩, hne (by decide)⟩,
        hne (by decide)⟩

theorem goesOn_flatMap_doubleChar {s : List Char} (h : s.head? ≠ some ' ') :
    GoesOn (s.flatMap doubleChar) := by
  cases s with
  | nil => simp [GoesOn]
  | cons c s =>
    intro x hx
    rw [List.flatMap_cons] at hx
    cases hshown : isShownInDouble c with
    | true =>
      rw [doubleChar, hshown, if_pos rfl] at hx
      cases hx
      rcases shownInDouble hshown with h' | rfl
      · exact ⟨h'.1, h'.2.1⟩
      · exact absurd rfl h
    | false =>
      rw [(escapeSequence_eq hshown (c := { rest := escapeOf c }) (r := [])
        (List.append_nil _).symm).1] at hx
      cases hx
      decide

/-- **What is written between double quotes for a string stands for the string.** -/
theorem quoted_double (s : List Char) : Quoted '"' (s.flatMap doubleChar) s := by
  -- Spaces are read at once, up to a character that is none, so the induction is on the length.
  induction hlength : s.length using Nat.strong_induction_on generalizing s with
  | _ k ih =>
    obtain ⟨n, r, rfl, hr⟩ := exists_spaces s
    rw [List.length_append, List.length_replicate] at hlength
    by_cases hn : 0 < n
    · have hspaces : (List.replicate n ' ').flatMap doubleChar = List.replicate n ' ' := by
        rw [List.flatMap_replicate, show doubleChar ' ' = [' '] by decide]
        simp
      rw [List.flatMap_append, hspaces]
      exact .blanks hn (goesOn_flatMap_doubleChar hr) (ih r.length (by omega) r rfl)
    · obtain rfl : n = 0 := by omega
      rw [List.replicate_zero, List.nil_append]
      cases r with
      | nil => exact .nil
      | cons c r =>
        have htail := ih r.length (by rw [List.length_cons] at hlength; omega) r rfl
        rw [List.flatMap_cons]
        cases hshown : isShownInDouble c with
        | true =>
          rw [doubleChar, hshown, if_pos rfl]
          rcases shownInDouble hshown with ⟨hindent, hbreak, hquote, hslash⟩ | rfl
          · exact .char hindent hbreak hquote (fun h => absurd h hslash) htail
          · exact absurd rfl hr
        | false =>
          have hescape {d : Cursor} {t : List Char} (h : d.rest = escapeOf c ++ t) :=
            escapeSequence_eq hshown h
          rw [(hescape (d := { rest := escapeOf c }) (t := []) (List.append_nil _).symm).1]
          exact .escape rfl (fun d t h => (hescape h).2) htail

end Storyline.Yaml
