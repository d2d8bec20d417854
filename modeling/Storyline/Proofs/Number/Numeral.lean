import Mathlib
import Storyline.Number.Literal

/-!
# The characters of a number

A number is spelled with decimal digits of any script, letters, signs and points. So a text that
holds any other character, such as a blank between two operands or a quotation mark, spells no
number, not even one with too many digits.

## Main definitions

* `isNumeral`: the characters that numbers are spelled with
* `Numeric`: a text of such characters alone

## Main results

* `numeric_of_integerDigits?`, `numeric_of_decimal?`, `numeric_of_prefixed?`: what the spellings of
  a number consist of
* `readLiteral_of_not_numeric`: any other text spells no number
* `numeric_of_readLiteral`: the text of a number
-/

namespace Storyline.Number

open Text

/-- The characters that numbers are spelled with: decimal digits, letters, signs and points. -/
def isNumeral (c : Char) : Bool :=
  isDecimal c || c.isAlphanum || c == '+' || c == '-' || c == '.'

/-- Whether a text consists of characters that numbers are spelled with. -/
def Numeric (s : List Char) : Prop :=
  ∀ c ∈ s, isNumeral c = true

variable {s : List Char}

theorem isNumeral_of_isDecimal {c : Char} (h : isDecimal c = true) : isNumeral c = true := by
  simp [isNumeral, h]

theorem isNumeral_of_isAlphanum {c : Char} (h : c.isAlphanum = true) : isNumeral c = true := by
  simp [isNumeral, h]

theorem numeric_cons {c : Char} (hc : isNumeral c = true) (hs : Numeric s) : Numeric (c :: s) :=
  List.forall_mem_cons.2 ⟨hc, hs⟩

/-! ## Signs and digits -/

/-- A sign in front is one of the characters of a number. -/
theorem numeric_of_splitSign (h : Numeric (splitSign s).2) : Numeric s := by
  unfold splitSign at h
  split at h
  · exact numeric_cons rfl h
  · exact numeric_cons rfl h
  · exact h

/-- So are the digits in front. -/
theorem numeric_of_splitDigits (h : Numeric (splitDigits s).2) : Numeric s := by
  induction s with
  | nil => exact h
  | cons c r ih =>
    rw [splitDigits] at h
    cases hc : digitValue? c with
    | none =>
      rw [hc] at h
      exact h
    | some d =>
      rw [hc] at h
      have hdecimal : isDecimal c = true := by rw [isDecimal, hc]; rfl
      exact numeric_cons (isNumeral_of_isDecimal hdecimal) (ih h)

theorem numeric_of_integerDigits? {p : Bool × List Nat} (h : integerDigits? s = some p) :
    Numeric s := by
  unfold integerDigits? at h
  dsimp only at h
  split at h
  · cases h
  · next hsplit =>
    -- Nothing is left of the text behind its digits.
    refine numeric_of_splitSign (numeric_of_splitDigits ?_)
    rw [hsplit]
    exact List.forall_mem_nil _
  · cases h

theorem numeric_of_exponent? {e : Int} (h : exponent? s = some e) : Numeric s := by
  cases s with
  | nil => exact List.forall_mem_nil _
  | cons c r =>
    rw [exponent?] at h
    split at h
    · next hc =>
      obtain ⟨p, hp, -⟩ := Option.map_eq_some_iff.1 h
      refine numeric_cons ?_ (numeric_of_integerDigits? hp)
      rw [Bool.or_eq_true, decide_eq_true_eq, decide_eq_true_eq] at hc
      rcases hc with rfl | rfl <;> rfl
    · cases h

/-- A decimal is a sign, digits, a point, digits and an exponent, some of which may be missing. -/
theorem numeric_of_decimal? {x : Float} (h : decimal? s = some x) : Numeric s := by
  have hexponent {b : Bool} {r : List Char} {f : Int → Float}
      (h : (if b then none else (exponent? r).map f) = some x) : Numeric r := by
    cases b with
    | true => cases h
    | false =>
      obtain ⟨e, he, -⟩ := Option.map_eq_some_iff.1 h
      exact numeric_of_exponent? he
  -- The exponent is looked for behind the point and its digits, or where the point would be.
  unfold decimal? at h
  refine numeric_of_splitSign (numeric_of_splitDigits ?_)
  dsimp only at h
  split at h
  · next t hpoint =>
    rw [hpoint]
    exact numeric_cons rfl (numeric_of_splitDigits (hexponent h))
  · exact hexponent h

/-! ## Bases and infinities -/

theorem isAlphanum_of_hexValue? {c : Char} {d : Nat} (h : hexValue? c = some d) :
    c.isAlphanum = true := by
  unfold hexValue? at h
  split at h
  · next hdigit => simp [Char.isAlphanum, hdigit]
  · split at h
    · next hletter =>
      rw [Bool.and_eq_true, decide_eq_true_eq, decide_eq_true_eq] at hletter
      have hlast : c.val ≤ 'z'.val := UInt32.le_trans hletter.2 (by decide)
      simp [Char.isAlphanum, Char.isAlpha, Char.isLower, show c.val ≥ 97 from hletter.1,
        show c.val ≤ 122 from hlast]
    · split at h
      · next hletter =>
        rw [Bool.and_eq_true, decide_eq_true_eq, decide_eq_true_eq] at hletter
        have hlast : c.val ≤ 'Z'.val := UInt32.le_trans hletter.2 (by decide)
        simp [Char.isAlphanum, Char.isAlpha, Char.isUpper, show c.val ≥ 65 from hletter.1,
          show c.val ≤ 90 from hlast]
      · cases h

theorem numeric_of_mapM {base : Nat} {ds : List Nat}
    (h : (s.mapM fun c => (hexValue? c).filter (· < base)) = some ds) : Numeric s := by
  induction s generalizing ds with
  | nil => exact List.forall_mem_nil _
  | cons c r ih =>
    rw [List.mapM_cons] at h
    obtain ⟨d, hd, h⟩ := Option.bind_eq_some_iff.1 h
    obtain ⟨ds', hds', -⟩ := Option.bind_eq_some_iff.1 h
    have hvalue := (Option.filter_eq_some_iff.1 hd).1
    exact numeric_cons (isNumeral_of_isAlphanum (isAlphanum_of_hexValue? hvalue)) (ih hds')

theorem numeric_of_based? {base : Nat} {n : Int} (h : based? base s = some n) : Numeric s := by
  unfold based? at h
  split at h
  · cases h
  · obtain ⟨ds, hds, -⟩ := Option.map_eq_some_iff.1 h
    exact numeric_of_mapM hds

theorem numeric_of_prefixed? {n : Int} (h : prefixed? s = some n) : Numeric s := by
  have hletter {a b c : Char} {base : Nat} {r : List Char} (ha : isNumeral a = true)
      (hb : isNumeral b = true) (hc : (c = a || c = b) = true) (h : based? base r = some n) :
      Numeric ('0' :: c :: r) := by
    rw [Bool.or_eq_true, decide_eq_true_eq, decide_eq_true_eq] at hc
    refine numeric_cons rfl (numeric_cons ?_ (numeric_of_based? h))
    rcases hc with rfl | rfl
    · exact ha
    · exact hb
  unfold prefixed? at h
  split at h
  · split at h
    · next hc => exact hletter rfl rfl hc h
    · split at h
      · next hc => exact hletter rfl rfl hc h
      · split at h
        · next hc => exact hletter rfl rfl hc h
        · cases h
  · cases h

theorem numeric_of_infinity? {x : Float} (h : infinity? s = some x) : Numeric s := by
  unfold infinity? at h
  split at h
  · next hword =>
    rw [Bool.or_eq_true, decide_eq_true_eq, decide_eq_true_eq] at hword
    rcases hword with rfl | rfl
    · exact List.all_eq_true.1 (by decide)
    · exact List.all_eq_true.1 (by decide)
  · split at h
    · next hword =>
      subst hword
      exact List.all_eq_true.1 (by decide)
    · cases h

/-! ## Literals -/

/-- **A text with any other character in it spells no number.** -/
theorem readLiteral_of_not_numeric (h : ¬Numeric (trim s)) : readLiteral s = .ok none := by
  have hinteger : integerDigits? (trim s) = none :=
    Option.eq_none_iff_forall_ne_some.2 fun p hp => h (numeric_of_integerDigits? hp)
  have hdecimal : decimal? (trim s) = none :=
    Option.eq_none_iff_forall_ne_some.2 fun x hx => h (numeric_of_decimal? hx)
  have hprefixed : prefixed? (trim s) = none :=
    Option.eq_none_iff_forall_ne_some.2 fun n hn => h (numeric_of_prefixed? hn)
  have hinfinity : infinity? (trim s) = none :=
    Option.eq_none_iff_forall_ne_some.2 fun x hx => h (numeric_of_infinity? hx)
  unfold readLiteral
  dsimp only
  rw [hinteger, hdecimal, hprefixed, hinfinity]
  rfl

/-- The text of a number consists of characters that numbers are spelled with. -/
theorem numeric_of_readLiteral {n : Number} (h : readLiteral s = .ok (some n)) :
    Numeric (trim s) := by
  refine Classical.byContradiction fun hnot => ?_
  rw [readLiteral_of_not_numeric hnot] at h
  cases h

end Storyline.Number
