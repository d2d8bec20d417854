import Storyline.Proofs.Number.Decimal
import Storyline.Yaml.Text
import Storyline.Yaml.Number

/-!
# Numbers read back

An integer or a double is written as a plain scalar whose form tells its tag, and the scalar is read
as the number it was written for.

## Main definitions

* `figures`: the characters of numbers
* `Figures`: the texts that can be written plain because nothing in them is a mark

## Main results

* `intValue_intDigits`: an integer with not too many digits reads back
* `floatValue_render`: every double reads back
* `ofPlain_intDigits`, `ofPlain_render`: the tags of numbers
-/

namespace Storyline.Yaml

open Number

/-! ## The characters of numbers -/

/-- The characters of numbers: digits, points, signs and the letters of exponents, of the infinities
and of what is no number. -/
def figures : List Char :=
  ['0', '1', '2', '3', '4', '5', '6', '7', '8', '9', '.', 'e', '+', '-', 'i', 'n', 'f', 'a']

/-- A text of such characters that does not begin with two equal marks. -/
structure Figures (s : List Char) : Prop where
  figure : ∀ c ∈ s, c ∈ figures
  start : ∃ c r, s = c :: r ∧ (c.isDigit = true ∨ ∃ d t, r = d :: t ∧ c ≠ d)

theorem of_mem_figures {p : Char → Bool} {c : Char} (hc : c ∈ figures)
    (h : figures.all p = true) : p c = true :=
  List.all_eq_true.1 h c hc

theorem not_of_mem_figures {p : Char → Bool} {c : Char} (hc : c ∈ figures)
    (h : figures.all (fun c => !p c) = true) : p c = false := by
  have hp : (!p c) = true := of_mem_figures hc h
  rwa [Bool.not_eq_true'] at hp

theorem mem_figures_of_isDigit {c : Char} (h : c.isDigit = true) : c ∈ figures := by
  rw [Char.isDigit, Bool.and_eq_true, decide_eq_true_eq, decide_eq_true_eq] at h
  have h₁ : 48 ≤ c.toNat := UInt32.le_iff_toNat_le.1 h.1
  have h₂ : c.toNat ≤ 57 := UInt32.le_iff_toNat_le.1 h.2
  rw [← Char.ofNat_toNat c]
  interval_cases c.toNat <;> decide

/-- Whether a character is a mark of YAML wherever it stands, or not shown. -/
def isMark (c : Char) : Bool :=
  "#,[]\x7b\x7d&*!|>'\"%@`".toList.contains c || c == '?' || c == ':' || c == '\x00' ||
    isSeparator c || isWrittenBreak c || !isShown c

theorem isMark_of_mem_figures {c : Char} (h : c ∈ figures) : isMark c = false :=
  not_of_mem_figures h (by decide)

theorem isMark_eq_false {c : Char} (h : isMark c = false) :
    "#,[]\x7b\x7d&*!|>'\"%@`".toList.contains c = false ∧ (c == '?') = false ∧
      (c == ':') = false ∧ (c == '\x00') = false ∧ isSeparator c = false ∧
      isWrittenBreak c = false ∧ isShown c = true := by
  simpa only [isMark, Bool.or_eq_false_iff, Bool.not_eq_false', and_assoc] using h

theorem holdsMark_of_figures {s : List Char} (h : ∀ c ∈ s, c ∈ figures) (before : Char) :
    holdsMark false before s = false := by
  induction s generalizing before with
  | nil => rfl
  | cons c s ih =>
    have hc := h c List.mem_cons_self
    obtain ⟨-, -, hcolon, -⟩ := isMark_eq_false (isMark_of_mem_figures hc)
    have hhash : (c == '#') = false := not_of_mem_figures (p := (· == '#')) hc (by decide)
    rw [holdsMark, ih (fun d hd => h d (List.mem_cons_of_mem _ hd)), hcolon, hhash]
    rfl

theorem hasBlankEnd_of_figures {s : List Char} (h : ∀ c ∈ s, c ∈ figures) :
    hasBlankEnd s = false := by
  have hblank {c : Char} (hc : c ∈ s) : (c == ' ' || isWrittenBreak c) = false := by
    obtain ⟨-, -, -, -, hseparator, hbreak, -⟩ := isMark_eq_false (isMark_of_mem_figures (h c hc))
    rw [isSeparator, Bool.or_eq_false_iff, Bool.or_eq_false_iff] at hseparator
    rw [hseparator.1.1, hbreak]
    rfl
  cases s with
  | nil => rfl
  | cons c r =>
    rw [hasBlankEnd, List.head?_cons, List.getLast?_eq_some_getLast (List.cons_ne_nil c r),
      Option.any_some, Option.any_some, hblank List.mem_cons_self, hblank (List.getLast_mem _)]
    rfl

/-- Such a text begins with no mark: a hyphen has no separator after it. -/
theorem Figures.startsWithMark {s : List Char} (h : Figures s) :
    Yaml.startsWithMark false s = false := by
  obtain ⟨hfigure, c, r, rfl, hstart⟩ := h
  obtain ⟨hlist, hquestion, hcolon, -⟩ :=
    isMark_eq_false (isMark_of_mem_figures (hfigure c List.mem_cons_self))
  rw [Yaml.startsWithMark, hlist, hquestion, hcolon, Bool.or_self, Bool.false_and, Bool.false_or,
    Bool.false_or]
  rcases hstart with hc | ⟨d, t, rfl, hne⟩
  · -- a digit is no hyphen
    rw [Bool.and_eq_false_iff]
    left
    rw [beq_eq_false_iff_ne]
    rintro rfl
    exact absurd hc (by decide)
  · obtain ⟨-, -, -, hzero, hseparator, -⟩ :=
      isMark_eq_false (isMark_of_mem_figures (hfigure d (by simp)))
    rw [atSeparator, List.head?_cons, Option.all_some, hzero, hseparator, Bool.or_self,
      Bool.and_false]

/-- Nor with the mark of a document, whose characters are equal. -/
theorem Figures.isPrefixOf {s : List Char} (h : Figures s) {q : Char} (hq : q.isDigit = false) :
    [q, q, q].isPrefixOf s = false := by
  obtain ⟨-, c, r, rfl, hstart⟩ := h
  rw [← Bool.not_eq_true, List.isPrefixOf_iff_prefix, List.cons_prefix_cons]
  rintro ⟨rfl, hp⟩
  rcases hstart with hc | ⟨d, t, rfl, hne⟩
  · rw [hq] at hc
    cases hc
  · exact hne (List.cons_prefix_cons.1 hp).1

/-- Such a text can be written plain. -/
theorem Figures.allowsPlain {s : List Char} (h : Figures s) : allowsPlain false s = true := by
  have hmark {c : Char} (hc : c ∈ s) := isMark_eq_false (isMark_of_mem_figures (h.figure c hc))
  have hshown : s.any (fun c => !isShown c) = false := by
    rw [List.any_eq_false]
    intro c hc
    rw [(hmark hc).2.2.2.2.2.2]
    decide
  have hsingle : isMultiline s = false := by
    rw [isMultiline, List.any_eq_false]
    intro c hc
    rw [(hmark hc).2.2.2.2.2.1]
    decide
  have hends := hasBlankEnd_of_figures h.figure
  have hstarts := h.startsWithMark
  have hhyphens := h.isPrefixOf (q := '-') rfl
  have hpoints := h.isPrefixOf (q := '.') rfl
  obtain ⟨hfigure, c, r, rfl, -⟩ := h
  rw [Yaml.allowsPlain, hends, hsingle, hshown, hstarts, hhyphens, hpoints,
    holdsMark_of_figures fun d hd => hfigure d (List.mem_cons_of_mem _ hd)]
  rfl

theorem figures_signed {negative : Bool} {c : Char} {r : List Char} (hc : c.isDigit = true)
    (hr : ∀ d ∈ r, d ∈ figures) : Figures (if negative then '-' :: c :: r else c :: r) := by
  have hall : ∀ d ∈ c :: r, d ∈ figures := by
    intro d hd
    rcases List.mem_cons.1 hd with rfl | hd
    · exact mem_figures_of_isDigit hc
    · exact hr d hd
  cases negative
  · exact ⟨hall, c, r, rfl, .inl hc⟩
  · refine ⟨?_, '-', c :: r, rfl, .inr ⟨c, r, rfl, ?_⟩⟩
    · intro d hd
      rcases List.mem_cons.1 hd with rfl | hd
      · decide
      · exact hall d hd
    · rintro rfl
      exact absurd hc (by decide)

theorem withoutUnderscores_eq {s : List Char} (h : ∀ c ∈ s, c ∈ figures) :
    s.filter (· ≠ '_') = s := by
  rw [List.filter_eq_self]
  exact fun c hc => of_mem_figures (p := fun c => decide (c ≠ '_')) (h c hc) (by decide)

theorem trimBlanks_eq {s : List Char} (h : ∀ c ∈ s, c ∈ figures) : trimBlanks s = s := by
  have hdrop {t : List Char} (ht : ∀ c ∈ t, c ∈ figures) : t.dropWhile isNumberBlank = t := by
    rw [List.dropWhile_eq_self_iff]
    intro hlength
    exact Bool.eq_false_iff.1 (not_of_mem_figures (ht _ (List.getElem_mem hlength)) (by decide))
  rw [trimBlanks, hdrop h, hdrop fun c hc => h c (List.mem_reverse.1 hc), List.reverse_reverse]

/-! ## Integers -/

theorem ofDigitChars_lt {ds : List Char} (h : ∀ c ∈ ds, c.isDigit = true) :
    Nat.ofDigitChars 10 ds 0 < 10 ^ ds.length := by
  induction ds with
  | nil => decide
  | cons c ds ih =>
    have hc : c.toNat - 48 ≤ 9 := by
      have hd := h c List.mem_cons_self
      rw [Char.isDigit, Bool.and_eq_true, decide_eq_true_eq, decide_eq_true_eq] at hd
      have hle : c.toNat ≤ 57 := UInt32.le_iff_toNat_le.1 hd.2
      omega
    have hlt := ih fun d hd => h d (List.mem_cons_of_mem _ hd)
    have hmul : 10 ^ ds.length * (c.toNat - 48) ≤ 10 ^ ds.length * 9 := Nat.mul_le_mul_left _ hc
    rw [Nat.ofDigitChars_cons, Nat.ofDigitChars_eq_ofDigitChars_zero, Nat.mul_zero, Nat.zero_add,
      List.length_cons, Nat.pow_succ]
    have h48 : '0'.toNat = 48 := rfl
    rw [h48]
    omega

/-- The digits of a natural begin with zero for zero alone. -/
theorem eq_nil_of_toDigits {n : Nat} {r : List Char} (h : Nat.toDigits 10 n = '0' :: r) :
    r = [] := by
  have hvalue : Nat.ofDigitChars 10 ('0' :: r) 0 = n := h ▸ Nat.ofDigitChars_ten_toDigits
  have hlt : Nat.ofDigitChars 10 r 0 < 10 ^ r.length := ofDigitChars_lt fun c hc =>
    isDigit_of_mem_toDigits (h ▸ List.mem_cons_of_mem _ hc)
  rw [Nat.ofDigitChars_cons] at hvalue
  rcases Nat.eq_zero_or_pos n with rfl | hn
  · exact (List.cons.inj h).2.symm
  · have hle := (pow_length_toDigits hn).1
    rw [h, List.length_cons, Nat.add_sub_cancel] at hle
    exact absurd (hvalue ▸ hlt) (not_lt.2 hle)

theorem exists_intDigits (n : Int) :
    ∃ c r, c.isDigit = true ∧ (∀ d ∈ r, d.isDigit = true) ∧ Nat.toDigits 10 n.natAbs = c :: r ∧
      intDigits n = if decide (n < 0) then '-' :: c :: r else c :: r := by
  have hdigit {c : Char} (hc : c ∈ Nat.toDigits 10 n.natAbs) : c.isDigit = true :=
    isDigit_of_mem_toDigits hc
  have hne : Nat.toDigits 10 n.natAbs ≠ [] := Nat.toDigits_ne_nil
  unfold intDigits
  generalize Nat.toDigits 10 n.natAbs = ds at *
  cases ds with
  | nil => exact absurd rfl hne
  | cons d ds =>
    refine ⟨d, ds, hdigit List.mem_cons_self, fun c hc => hdigit (List.mem_cons_of_mem _ hc),
      rfl, ?_⟩
    by_cases hn : n < 0
    · rw [if_pos hn, if_pos (decide_eq_true hn)]
    · rw [if_neg hn, if_neg (by simpa using hn)]

theorem figures_intDigits (n : Int) : Figures (intDigits n) := by
  obtain ⟨c, r, hc, hr, -, h⟩ := exists_intDigits n
  rw [h]
  exact figures_signed hc fun d hd => mem_figures_of_isDigit (hr d hd)

theorem mapM_digitIn? {ds : List Char} (h : ∀ c ∈ ds, c.isDigit = true) :
    ds.mapM (digitIn? 10) = some (ds.map fun c => c.toNat - 48) := by
  induction ds with
  | nil => rfl
  | cons c ds ih =>
    have hd := h c List.mem_cons_self
    have hlt : c.toNat - 48 < 10 := by
      rw [Char.isDigit, Bool.and_eq_true, decide_eq_true_eq, decide_eq_true_eq] at hd
      have hle : c.toNat ≤ 57 := UInt32.le_iff_toNat_le.1 hd.2
      omega
    have hc : digitIn? 10 c = some (c.toNat - 48) := by
      rw [digitIn?, digitValue?_of_isDigit hd]
      simpa using hlt
    rw [List.mapM_cons, hc, ih fun d hd => h d (List.mem_cons_of_mem _ hd)]
    rfl

theorem loneUnderscores_of_digits {ds : List Char} (h : ∀ c ∈ ds, c.isDigit = true)
    (before : Bool) : loneUnderscores before ds = (!ds.isEmpty || !before) := by
  induction ds generalizing before with
  | nil => rfl
  | cons c ds ih =>
    have hc : c ≠ '_' := by
      rintro rfl
      exact absurd (h '_' List.mem_cons_self) (by decide)
    rw [loneUnderscores, if_neg hc, ih fun d hd => h d (List.mem_cons_of_mem _ hd)]
    simp

theorem intIn_digits {c : Char} {r : List Char} (hc : c.isDigit = true)
    (hr : ∀ d ∈ r, d.isDigit = true) (hlength : (c :: r).length ≤ digitLimit) :
    intIn 10 (c :: r) = .ok (Nat.ofDigitChars 10 (c :: r) 0 : Nat) := by
  have hall : ∀ d ∈ c :: r, d.isDigit = true := by
    intro d hd
    rcases List.mem_cons.1 hd with rfl | hd
    · exact hc
    · exact hr d hd
  have hfigure : ∀ d ∈ c :: r, d ∈ figures := fun d hd => mem_figures_of_isDigit (hall d hd)
  -- There is nothing to be taken off: no base, no underscores, no blanks.
  have hbase : afterBase 10 (c :: r) = c :: r := by
    unfold afterBase
    split
    · next heq => rw [if_neg (by simp [baseLetter?]), heq]
    · rfl
  have hunderscores : withoutUnderscores? (c :: r) = some (c :: r) := by
    rw [withoutUnderscores?, loneUnderscores_of_digits hall, if_pos (by rfl),
      withoutUnderscores_eq hfigure]
  have hdigits : spelledDigits? 10 (c :: r) =
      some (false, (c :: r).map fun c => c.toNat - 48) := by
    rw [spelledDigits?, trimBlanks_eq hfigure, splitSign_of_isDigit hc]
    dsimp only
    rw [hbase, hunderscores, Option.bind_eq_bind, Option.bind_some, mapM_digitIn? hall]
    rfl
  rw [intIn, spelledInt, hdigits]
  dsimp only
  rw [if_pos rfl, ofSignedDigits, if_neg (by rw [List.length_map]; exact not_lt.2 hlength),
    ofDigits_map]
  rfl

theorem signOf_of_isDigit {c : Char} (h : c.isDigit = true) (r : List Char) :
    signOf (c :: r) = (1, c :: r) := by
  unfold signOf
  split
  · next heq =>
    obtain ⟨rfl, -⟩ := List.cons.inj heq
    exact absurd h (by decide)
  · next heq =>
    obtain ⟨rfl, -⟩ := List.cons.inj heq
    exact absurd h (by decide)
  · rfl

/-- **An integer with not too many digits reads back.** -/
theorem intValue_intDigits {n : Int} (h : (Nat.toDigits 10 n.natAbs).length ≤ digitLimit) :
    intValue (intDigits n) = .ok n := by
  obtain ⟨c, r, hc, hr, hdigits, htext⟩ := exists_intDigits n
  have hsign : signOf (intDigits n) = (if n < 0 then -1 else 1, c :: r) := by
    rw [htext]
    by_cases hn : n < 0
    · rw [if_pos (decide_eq_true hn), if_pos hn]
      rfl
    · rw [if_neg (by simpa using hn), if_neg hn]
      exact signOf_of_isDigit hc r
  have hvalue : (Nat.ofDigitChars 10 (c :: r) 0 : Int) = n.natAbs := by
    rw [← hdigits, Nat.ofDigitChars_ten_toDigits]
  have hcolon : (c :: r).contains ':' = false := by
    rw [← Bool.not_eq_true, List.contains_iff_mem]
    intro hmem
    rcases List.mem_cons.1 hmem with rfl | hmem
    · exact absurd hc (by decide)
    · exact absurd (hr ':' hmem) (by decide)
  have hnonempty : (intDigits n).isEmpty = false := by
    rw [htext]
    split <;> rfl
  unfold intValue
  rw [withoutUnderscores_eq (figures_intDigits n).figure]
  dsimp only
  rw [hnonempty, if_neg Bool.false_ne_true, hsign]
  dsimp only
  -- A leading zero would mean another base, but zero is the only number that begins with it.
  by_cases hzero : c = '0'
  · subst hzero
    obtain rfl := eq_nil_of_toDigits hdigits
    have hn : n = 0 := Int.natAbs_eq_zero.1 (Int.ofNat_eq_zero.1 hvalue.symm)
    rw [hn]
    rfl
  · have hmul : (if n < 0 then (-1 : Int) else 1) * n.natAbs = n := by
      split <;> omega
    have hin := intIn_digits hc hr (hdigits ▸ h)
    split
    · next heq => cases heq
    · next heq => exact absurd (List.cons.inj heq).1 hzero
    · next heq => exact absurd (List.cons.inj heq).1 hzero
    · next heq => exact absurd (List.cons.inj heq).1 hzero
    · next heq => exact absurd (List.cons.inj heq).1 hzero
    · rw [if_neg (by rw [hcolon]; exact Bool.false_ne_true), hin, hvalue]
      exact congrArg Except.ok hmul

/-! ## Doubles -/

theorem Spells.figure {s : List Char} {m : Nat} {p : Int} (h : Spells s m p) :
    ∃ c r, s = c :: r ∧ c.isDigit = true ∧ ∀ d ∈ r, d ∈ figures := by
  obtain ⟨hne, hwhole, hfraction, hexponent⟩ := h
  rename_i whole fraction exponent e
  have hletters : ∀ d ∈ exponent, d ∈ figures := by
    cases hexponent with
    | none => simp
    | some negative _ hds =>
      intro d hd
      rcases List.mem_cons.1 hd with rfl | hd
      · decide
      · rcases List.mem_cons.1 hd with rfl | hd
        · cases negative <;> decide
        · exact mem_figures_of_isDigit (hds d hd)
  cases whole with
  | nil => exact absurd rfl hne
  | cons c whole =>
    refine ⟨c, _, rfl, hwhole c List.mem_cons_self, ?_⟩
    intro d hd
    rcases List.mem_append.1 hd with hd | hd
    · exact mem_figures_of_isDigit (hwhole d (List.mem_cons_of_mem _ hd))
    · rcases List.mem_cons.1 hd with rfl | hd
      · decide
      · rcases List.mem_append.1 hd with hd | hd
        · exact mem_figures_of_isDigit (hfraction d hd)
        · exact hletters d hd

theorem map_toLower_eq {s : List Char} (h : ∀ c ∈ s, c ∈ figures) :
    s.map Char.toLower = s := by
  conv_rhs => rw [← List.map_id s]
  refine List.map_congr_left fun c hc => ?_
  simpa using of_mem_figures (p := fun c => c.toLower == c) (h c hc) (by decide)

theorem floatOf_of_spells {s : List Char} {m : Nat} {p : Int} (h : Spells s m p) :
    floatOf s = .ok (ofDecimal false m p) := by
  obtain ⟨c, r, rfl, hc, hr⟩ := Spells.figure h
  have hfigure : ∀ d ∈ c :: r, d ∈ figures := by
    intro d hd
    rcases List.mem_cons.1 hd with rfl | hd
    · exact mem_figures_of_isDigit hc
    · exact hr d hd
  have hword {d : Char} {t : List Char} (hd : d.isDigit = false) :
      (String.ofList (c :: r) == String.ofList (d :: t)) = false := by
    rw [beq_eq_false_iff_ne, ne_eq, String.ofList_inj]
    rintro heq
    rw [(List.cons.inj heq).1, hd] at hc
    cases hc
  rw [floatOf, spelledFloat?, trimBlanks_eq hfigure, splitSign_of_isDigit hc]
  dsimp only
  rw [map_toLower_eq hfigure, show "inf" = String.ofList ['i', 'n', 'f'] by rfl,
    show "infinity" = String.ofList ['i', 'n', 'f', 'i', 'n', 'i', 't', 'y'] by rfl,
    show "nan" = String.ofList ['n', 'a', 'n'] by rfl, hword (by rfl), hword (by rfl),
    hword (by rfl), h.decimal?_eq]
  rfl

/-- What a text after an optional minus sign is read as. -/
theorem floatValue_signed {s : List Char} {m : Nat} {p : Int} (h : Spells s m p)
    (negative : Bool) :
    floatValue (if negative then '-' :: s else s) =
      .ok (if negative then -ofDecimal false m p else ofDecimal false m p) := by
  have hof := floatOf_of_spells h
  obtain ⟨c, r, rfl, hc, hr⟩ := Spells.figure h
  have hsigned : Figures (if negative then '-' :: c :: r else c :: r) := figures_signed hc hr
  have hfigures := hsigned.figure
  have hsign : signOf (if negative then '-' :: c :: r else c :: r) =
      (if negative then -1 else 1, c :: r) := by
    cases negative
    · exact signOf_of_isDigit hc r
    · rfl
  have hnonempty : (if negative then '-' :: c :: r else c :: r).isEmpty = false := by
    cases negative <;> rfl
  have hword {d : Char} {t : List Char} (hd : d.isDigit = false) : c :: r ≠ d :: t := by
    rintro heq
    rw [(List.cons.inj heq).1, hd] at hc
    cases hc
  -- None of the other forms of numbers fits: no word, and no digits in base sixty.
  have hcolon : (c :: r).contains ':' = false := by
    rw [← Bool.not_eq_true, List.contains_iff_mem]
    intro hmem
    rcases List.mem_cons.1 hmem with rfl | hmem
    · exact absurd hc (by decide)
    · exact absurd (hr ':' hmem) (by decide)
  unfold floatValue
  rw [withoutUnderscores_eq hfigures, map_toLower_eq hfigures]
  dsimp only
  rw [hnonempty, hsign]
  dsimp only
  rw [show ".inf".toList = ['.', 'i', 'n', 'f'] by rfl,
    show ".nan".toList = ['.', 'n', 'a', 'n'] by rfl, if_neg (hword (by rfl)),
    if_neg (hword (by rfl)), hcolon, hof]
  cases negative <;> rfl

theorem toList_render_nan {x : Float} (h : form x = .nan) :
    (Number.render floatLayout x).toList = ['.', 'n', 'a', 'n'] := by
  rw [Number.render, h]
  rfl

theorem toList_render_infinite {x : Float} {negative : Bool} (h : form x = .infinite negative) :
    (Number.render floatLayout x).toList =
      if negative then ['-', '.', 'i', 'n', 'f'] else ['.', 'i', 'n', 'f'] := by
  rw [Number.render, h]
  cases negative <;> rfl

/-- **Every double reads back.** -/
theorem floatValue_render (x : Float) :
    floatValue (Number.render floatLayout x).toList = .ok x := by
  cases h : form x with
  | nan =>
    rw [toList_render_nan h, eq_notANumber_of_form h]
    rfl
  | infinite negative =>
    rw [toList_render_infinite h, eq_infinity_of_form h]
    cases negative
    · rfl
    · exact congrArg Except.ok neg_infinity
  | finite negative m e =>
    obtain ⟨s, n, p, htext, hs, hx⟩ :=
      @exists_spells_render floatLayout (by decide) rfl _ _ _ _ h
    rw [htext, floatValue_signed hs negative, ← hx]

theorem figures_render (x : Float) : Figures (Number.render floatLayout x).toList := by
  cases h : form x with
  | nan =>
    rw [toList_render_nan h]
    exact ⟨by simp [figures], '.', _, rfl, .inr ⟨_, _, rfl, by decide⟩⟩
  | infinite negative =>
    rw [toList_render_infinite h]
    cases negative
    · exact ⟨by simp [figures], '.', _, rfl, .inr ⟨_, _, rfl, by decide⟩⟩
    · exact ⟨by simp [figures], '-', _, rfl, .inr ⟨_, _, rfl, by decide⟩⟩
  | finite negative m e =>
    obtain ⟨s, n, p, htext, hs, -⟩ :=
      @exists_spells_render floatLayout (by decide) rfl _ _ _ _ h
    obtain ⟨c, r, rfl, hc, hr⟩ := Spells.figure hs
    rw [htext]
    exact figures_signed hc hr

/-! ## Tags -/

theorem ofPlain_of_figures {s : List Char} (h : Figures s) {t : Tag}
    (ht : (if isBoolForm s then Tag.bool else if isFloatForm s then .float
      else if isIntForm s then .int else .str) = t) (hne : t ≠ .str) : Tag.ofPlain s = t := by
  obtain ⟨hfigure, c, r, rfl, -⟩ := h
  have hlast : (c :: r).getLast? ≠ some '\n' := by
    intro hlast
    exact absurd (hfigure _ (List.mem_of_getLast? hlast)) (by decide)
  unfold Tag.ofPlain
  dsimp only
  rw [if_neg hlast, List.isEmpty_cons, if_neg Bool.false_ne_true, if_neg Bool.false_ne_true]
  split
  · next h => rwa [if_pos h] at ht
  · next h =>
    rw [if_neg h] at ht
    split
    · next h => rwa [if_pos h] at ht
    · next h =>
      rw [if_neg h] at ht
      split
      · next h => rwa [if_pos h] at ht
      · next h =>
        rw [if_neg h] at ht
        exact absurd ht.symm hne

/-- The words for truth values begin with a letter. -/
theorem isBoolForm_eq_false {c : Char} (r : List Char)
    (hc : c ∉ ['y', 'Y', 'n', 'N', 't', 'T', 'f', 'F', 'o', 'O']) :
    isBoolForm (c :: r) = false := by
  rw [isBoolForm, ← Bool.not_eq_true, List.contains_iff_mem]
  intro h
  replace h := List.mem_map_of_mem (f := String.toList) h
  rw [String.toList_ofList] at h
  simp at h hc
  grind

theorem isBoolForm_signed {c : Char} (hc : c.isDigit = true) (r : List Char) (negative : Bool) :
    isBoolForm (if negative then '-' :: c :: r else c :: r) = false := by
  cases negative
  · refine isBoolForm_eq_false r fun hmem => ?_
    have hall : ['y', 'Y', 'n', 'N', 't', 'T', 'f', 'F', 'o', 'O'].all (fun c => !c.isDigit) =
      true := by decide
    have := List.all_eq_true.1 hall c hmem
    rw [hc] at this
    cases this
  · exact isBoolForm_eq_false _ (by simp)

theorem afterSign_signed {c : Char} (hc : c.isDigit = true) (r : List Char) (negative : Bool) :
    afterSign (if negative then '-' :: c :: r else c :: r) = c :: r := by
  cases negative
  · rw [if_neg Bool.false_ne_true]
    unfold afterSign
    split
    · next heq =>
      obtain ⟨rfl, -⟩ := List.cons.inj heq
      exact absurd hc (by decide)
    · next heq =>
      obtain ⟨rfl, -⟩ := List.cons.inj heq
      exact absurd hc (by decide)
    · rfl
  · rfl

theorem dropWhile_isNumeral {ds r : List Char} (hds : ∀ c ∈ ds, c.isDigit = true)
    (hr : ∀ c ∈ r.head?, isNumeral c = false) : (ds ++ r).dropWhile isNumeral = r := by
  rw [List.dropWhile_append_of_pos fun c hc => by rw [isNumeral, hds c hc, Bool.true_or]]
  cases r with
  | nil => rfl
  | cons c r =>
    rw [List.dropWhile_cons, hr c (Option.mem_some_self c), if_neg Bool.false_ne_true]

/-- The words for infinities and for what is no number begin with a point. -/
theorem pointWord_eq_false {s : List Char} (hs : s.head? ≠ some '.') :
    [".inf", ".Inf", ".INF"].contains (String.ofList s) = false ∧
      [".nan", ".NaN", ".NAN"].contains (String.ofList s) = false := by
  constructor <;>
  · rw [← Bool.not_eq_true, List.contains_iff_mem]
    intro h
    replace h := List.mem_map_of_mem (f := String.toList) h
    rw [String.toList_ofList] at h
    refine hs ?_
    simp at h
    rcases h with rfl | rfl | rfl <;> rfl

/-- An integer is written without a point, so it is no double, whose form is tried first. -/
theorem isFloatForm_intDigits (n : Int) : isFloatForm (intDigits n) = false := by
  obtain ⟨c, r, hc, hr, -, htext⟩ := exists_intDigits n
  have hpoint : '.' ∉ c :: r := by
    rw [List.mem_cons, not_or]
    constructor
    · rintro rfl
      exact absurd hc (by decide)
    · exact fun hmem => absurd (hr '.' hmem) (by decide)
  have hfirst : (intDigits n).head? ≠ some '.' := by
    rw [htext]
    split
    · simp
    · exact fun hhead => hpoint (List.mem_of_head? hhead)
  have hdrop : r.dropWhile isNumeral = [] := by
    have h := dropWhile_isNumeral (r := []) hr (by simp)
    rwa [List.append_nil] at h
  have hafter : afterSign (intDigits n) = c :: r := by rw [htext, afterSign_signed hc]
  unfold isFloatForm
  rw [hafter]
  dsimp only
  rw [hdrop, (pointWord_eq_false fun hhead => hpoint (List.mem_of_head? hhead)).1,
    (pointWord_eq_false hfirst).2]
  dsimp only
  rw [Bool.and_false, Bool.false_or, Bool.or_false, Bool.or_false, Bool.or_eq_false_iff]
  constructor
  · split
    · next heq => exact absurd (by rw [heq]; rfl) hfirst
    · rfl
  · exact Bool.and_false _

theorem isIntForm_intDigits (n : Int) : isIntForm (intDigits n) = true := by
  obtain ⟨c, r, hc, hr, hdigits, htext⟩ := exists_intDigits n
  have hall : r.all isNumeral = true :=
    List.all_eq_true.2 fun d hd => by rw [isNumeral, hr d hd, Bool.true_or]
  rw [isIntForm, htext, afterSign_signed hc]
  split
  · next heq =>
    obtain ⟨rfl, rfl⟩ := List.cons.inj heq
    rw [eq_nil_of_toDigits hdigits]
    rfl
  · next heq =>
    obtain ⟨rfl, rfl⟩ := List.cons.inj heq
    rw [hc, hall]
    rfl
  · next heq => cases heq

/-- The tag of an integer. -/
theorem ofPlain_intDigits (n : Int) : Tag.ofPlain (intDigits n) = .int := by
  refine ofPlain_of_figures (figures_intDigits n) ?_ (by decide)
  obtain ⟨c, r, hc, -, -, htext⟩ := exists_intDigits n
  have hbool : isBoolForm (intDigits n) = false := by rw [htext, isBoolForm_signed hc]
  rw [hbool, isFloatForm_intDigits, isIntForm_intDigits]
  rfl

theorem isExponentForm_of_exponent {s : List Char} {e : Int} (h : Exponent s e) :
    isExponentForm s = true := by
  cases h with
  | none => rfl
  | @some negative ds hne hds =>
    cases ds with
    | nil => exact absurd rfl hne
    | cons d ds =>
      rw [isExponentForm, List.all_eq_true.2 hds]
      cases negative <;> rfl

theorem isFloatForm_of_spells {s : List Char} {m : Nat} {p : Int} (h : Spells s m p)
    (negative : Bool) : isFloatForm (if negative then '-' :: s else s) = true := by
  obtain ⟨hne, hwhole, hfraction, hexponent⟩ := h
  rename_i whole fraction exponent e
  cases whole with
  | nil => exact absurd rfl hne
  | cons c whole =>
    have hc := hwhole c List.mem_cons_self
    have hdrop : (whole ++ '.' :: (fraction ++ exponent)).dropWhile isNumeral =
        '.' :: (fraction ++ exponent) :=
      dropWhile_isNumeral (fun d hd => hwhole d (List.mem_cons_of_mem _ hd))
        fun d hd => by cases hd; decide
    have hrest : (fraction ++ exponent).dropWhile isNumeral = exponent := by
      refine dropWhile_isNumeral hfraction fun d hd => ?_
      cases hexponent with
      | none => cases hd
      | some => cases hd; decide
    unfold isFloatForm
    rw [List.cons_append, afterSign_signed hc]
    dsimp only
    rw [hdrop, hc]
    have hfractionForm : isFractionForm (fraction ++ exponent) = true := by
      rw [isFractionForm, hrest, isExponentForm_of_exponent hexponent]
    simp only [hfractionForm, Bool.true_and, Bool.true_or]

/-- The tag of a double. -/
theorem ofPlain_render (x : Float) : Tag.ofPlain (Number.render floatLayout x).toList = .float := by
  refine ofPlain_of_figures (figures_render x) ?_ (by decide)
  cases h : form x with
  | nan =>
    rw [toList_render_nan h, isBoolForm_eq_false _ (by simp)]
    rfl
  | infinite negative =>
    rw [toList_render_infinite h]
    cases negative
    · rw [if_neg Bool.false_ne_true, isBoolForm_eq_false _ (by simp)]
      rfl
    · rw [if_pos rfl, isBoolForm_eq_false _ (by simp)]
      rfl
  | finite negative m e =>
    obtain ⟨s, n, p, htext, hs, -⟩ :=
      @exists_spells_render floatLayout (by decide) rfl _ _ _ _ h
    rw [htext, isFloatForm_of_spells hs]
    obtain ⟨c, r, rfl, hc, -⟩ := Spells.figure hs
    rw [isBoolForm_signed hc]
    rfl

/-- The word for a truth value. -/
theorem ofPlain_bool (b : Bool) : Tag.ofPlain (if b then "true" else "false").toList = .bool := by
  cases b <;> decide

theorem allowsPlain_bool (b : Bool) :
    allowsPlain false (if b then "true" else "false").toList = true := by
  cases b <;> decide

end Storyline.Yaml
