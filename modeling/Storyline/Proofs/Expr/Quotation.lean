import Storyline.Proofs.Expr.Operand
import Storyline.Proofs.Expr.Sequence

/-!
# Quotations

A quotation is a text between two quotes of one kind that does not hold them itself. Whatever else
it holds, separators, operators and the other quote, is passed over where a condition or an
assignment is cut, and no number is read from it.

## Main definitions

* `quotation`: a text between quotes
* `IsOperand`: a text without marks, or a quotation

## Main results

* `uncut_quotation`, `cutOperators_quotation`: a quotation is passed over
* `IsOperand.uncut_append_iff`, `IsOperand.cutOperators_append`: so is any operand
* `resolve_quotation`: a quotation stands for the text in it
-/

namespace Storyline

namespace Expr

open Text

/-- A text between quotes. -/
def quotation (q : Char) (v : List Char) : List Char :=
  q :: (v ++ [q])

section

variable {q : Char} {v s t : List Char} {seps : List (List Char)}

/-- What holds of both quotes holds of every quote. -/
theorem of_isQuote {p : Char → Prop} (hq : isQuote q = true) (hsingle : p '\'')
    (hdouble : p '"') : p q := by
  rw [isQuote, Bool.or_eq_true, beq_iff_eq, beq_iff_eq] at hq
  rcases hq with rfl | rfl
  · exact hsingle
  · exact hdouble

theorem afterChar_of_isQuote (hq : isQuote q = true) : afterChar none q = some q := by
  rw [afterChar, hq]
  rfl

theorem afterChar_of_ne {c : Char} (h : c ≠ q) : afterChar (some q) c = some q := by
  rw [afterChar, if_neg h]

theorem afterChar_self (q : Char) : afterChar (some q) q = none := by
  rw [afterChar, if_pos rfl]

theorem quotation_append (q : Char) (v t : List Char) :
    quotation q v ++ t = q :: (v ++ q :: t) := by
  simp [quotation]

theorem filled_quotation (hq : isQuote q = true) (v : List Char) : Filled (quotation q v) := by
  have hblank : isBlank q = false :=
    of_isQuote (p := fun c => isBlank c = false) hq rfl rfl
  refine ⟨List.cons_ne_nil _ _, trim_eq_self_iff.2 ⟨?_, ?_⟩⟩
  · rintro c ⟨⟩
    exact hblank
  · rw [quotation, ← List.cons_append, List.getLast?_concat]
    rintro c ⟨⟩
    exact hblank

/-! ## Separators -/

/-- Up to the quote that closes it a quotation is passed over. -/
theorem uncut_quoted (hv : q ∉ v) :
    Uncut seps (some q) (v ++ q :: t) ↔ Uncut seps none t := by
  induction v with
  | nil =>
    rw [List.nil_append, Uncut, separatorAt_of_quote, afterChar_self]
    exact and_iff_right rfl
  | cons c r ih =>
    rw [List.mem_cons, not_or] at hv
    obtain ⟨hc, hr⟩ := hv
    rw [List.cons_append, Uncut, separatorAt_of_quote, afterChar_of_ne (Ne.symm hc), ih hr]
    exact and_iff_right rfl

/-- **No separator counts inside a quotation.** -/
theorem uncut_quotation (hq : isQuote q = true) (hv : q ∉ v) :
    Uncut seps none (quotation q v ++ t) ↔ Uncut seps none t := by
  have hopen : separatorAt seps none (q :: (v ++ q :: t)) = none := by
    rw [separatorAt, List.head?_cons, Option.any_some, hq]
    rfl
  rw [quotation_append, Uncut, hopen, afterChar_of_isQuote hq, uncut_quoted hv]
  exact and_iff_right rfl

/-! ## Operators -/

theorem operatorAt?_of_isQuote (hq : isQuote q = true) (r : List Char) :
    operatorAt? (q :: r) = none :=
  of_isQuote (p := fun c => operatorAt? (c :: r) = none) hq (ite_self none) (ite_self none)

theorem cutOperators_quoted_append (hv : q ∉ v) :
    cutOperators (some q) (v ++ q :: t) =
      (v ++ q :: (cutOperators none t).1, (cutOperators none t).2) := by
  induction v with
  | nil =>
    rw [List.nil_append, cutOperators_quoted, afterChar_self]
    rfl
  | cons c r ih =>
    rw [List.mem_cons, not_or] at hv
    obtain ⟨hc, hr⟩ := hv
    rw [List.cons_append, cutOperators_quoted, afterChar_of_ne (Ne.symm hc), ih hr]
    rfl

/-- **No operator counts inside a quotation.** -/
theorem cutOperators_quotation (hq : isQuote q = true) (hv : q ∉ v) :
    cutOperators none (quotation q v ++ t) =
      (quotation q v ++ (cutOperators none t).1, (cutOperators none t).2) := by
  rw [quotation_append, quotation_append, cutOperators_char (operatorAt?_of_isQuote hq _),
    afterChar_of_isQuote hq, cutOperators_quoted_append hv]
  rfl

/-! ## Values -/

theorem readLiteral_quotation (hq : isQuote q = true) (v : List Char) :
    Number.readLiteral (quotation q v) = .ok none := by
  apply Number.readLiteral_of_not_numeric
  intro hnumeric
  -- The quote in front is no character of a number.
  rw [(filled_quotation hq v).2] at hnumeric
  have hmark := notMem_marks_of_isNumeral (hnumeric q List.mem_cons_self)
  rw [isQuote_of_notMem_marks hmark] at hq
  cases hq

theorem unquoted?_quotation (hq : isQuote q = true) (v : List Char) :
    unquoted? (quotation q v) = some v := by
  have hlast : (quotation q v).getLast? = some q := by
    rw [quotation, ← List.cons_append, List.getLast?_concat]
  have hinner : ((quotation q v).drop 1).dropLast = v := List.dropLast_concat
  rw [unquoted?, hlast, hinner]
  simp [quotation, hq]

/-- **A quotation stands for the text in it.** -/
theorem resolve_quotation (hq : isQuote q = true) (v : List Char) (state : State) :
    resolve (quotation q v) state = .ok (some (.str (String.ofList v))) := by
  have hne {word : List Char} (hword : word.any isQuote = false) : quotation q v ≠ word := by
    rintro rfl
    have hplain := List.any_eq_false.1 hword q List.mem_cons_self
    exact hplain hq
  rw [resolve, if_neg (hne (by decide)), if_neg (hne (by decide)), readLiteral_quotation hq,
    unquoted?_quotation hq]
  rfl

/-! ## Operands -/

/-- Whether a text stands as one operand: it is trimmed, not empty and without marks, or it is a
quotation. -/
inductive IsOperand : List Char → Prop where
  | plain {s : List Char} (filled : Filled s) (plain : ∀ c ∈ s, c ∉ marks) : IsOperand s
  | quoted {q : Char} {v : List Char} (hq : isQuote q = true) (hv : q ∉ v) :
    IsOperand (quotation q v)

namespace IsOperand

theorem filled (h : IsOperand s) : Filled s := by
  cases h with
  | plain filled plain => exact filled
  | quoted hq hv => exact filled_quotation hq _

/-- No separator counts inside an operand. -/
theorem uncut_append_iff (h : IsOperand s) :
    Uncut conjunctions none (s ++ t) ↔ Uncut conjunctions none t := by
  cases h with
  | plain filled plain => exact uncut_append_of_unmarked (unmarked_of_notMem_marks plain)
  | quoted hq hv => exact uncut_quotation hq hv

/-- No operator counts inside an operand. -/
theorem cutOperators_append (h : IsOperand s) (t : List Char) :
    cutOperators none (s ++ t) = (s ++ (cutOperators none t).1, (cutOperators none t).2) := by
  cases h with
  | plain filled plain => exact Expr.cutOperators_append plain t
  | quoted hq hv => exact cutOperators_quotation hq hv

end IsOperand

end

end Expr

end Storyline
