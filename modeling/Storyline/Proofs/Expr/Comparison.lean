import Mathlib.Data.List.Forall2
import Storyline.Proofs.Expr.Split

/-!
# Texts cut at their operators

A condition is cut at the operators outside its quotes, and the operands are what stands between
them, without blank ends. So blanks around a condition do not count, and text that begins no
operator belongs to the operand that it stands in.

## Main definitions

* `operatorAt?`: the operator at the start of a text
* `Quiet`: a text without quotes and operators
* `addBehind`: a cut text with more text behind its last part
* `tokensOf`: the pieces of a cut text

## Main results

* `Quiet.cutOperators_append`: text without quotes and operators in front lengthens the first part
* `cutOperators_append_behind`: text without operators behind lengthens the last part
* `tokenize_trim`: blanks around a condition do not count
-/

namespace Storyline.Expr

open Text

/-! ## Operators -/

/-- The operator that a sign is with an equals sign behind it. -/
def withEquals? : Char → Option Comparison
  | '=' => some .eq
  | '!' => some .ne
  | '>' => some .ge
  | '<' => some .le
  | _ => none

/-- The operator that a sign is alone. -/
def alone? : Char → Option Comparison
  | '>' => some .gt
  | '<' => some .lt
  | _ => none

/-- The operator at the start of a text, and the text after it. -/
def operatorAt? : List Char → Option (Comparison × List Char)
  | [] => none
  | c :: r =>
    if r.head? = some '=' then (withEquals? c).map (·, r.tail) else (alone? c).map (·, r)

theorem operatorAt?_cases {s r : List Char} {o : Comparison} (h : operatorAt? s = some (o, r)) :
    (∃ c, s = c :: '=' :: r ∧ withEquals? c = some o) ∨
      ∃ c, s = c :: r ∧ r.head? ≠ some '=' ∧ alone? c = some o := by
  cases s with
  | nil => cases h
  | cons c t =>
    rw [operatorAt?] at h
    split at h
    · next hhead =>
      obtain ⟨p, hp, he⟩ := Option.map_eq_some_iff.1 h
      obtain ⟨u, rfl⟩ := List.head?_eq_some_iff.1 hhead
      cases he
      exact .inl ⟨c, rfl, hp⟩
    · next hhead =>
      obtain ⟨p, hp, he⟩ := Option.map_eq_some_iff.1 h
      cases he
      exact .inr ⟨c, rfl, hhead, hp⟩

theorem length_lt_of_operatorAt? {s r : List Char} {o : Comparison}
    (h : operatorAt? s = some (o, r)) : r.length < s.length := by
  rcases operatorAt?_cases h with ⟨c, rfl, -⟩ | ⟨c, rfl, -⟩
  · exact Nat.lt_of_lt_of_le (Nat.lt_succ_self _) (Nat.le_succ _)
  · exact Nat.lt_succ_self _

theorem cutOperators_nil (quote : Option Char) : cutOperators quote [] = ([], []) := by
  cases quote <;> rfl

theorem cutOperators_quoted (q c : Char) (r : List Char) :
    cutOperators (some q) (c :: r) = consFirst c (cutOperators (afterChar (some q) c) r) :=
  rfl

theorem cutOperators_operator {s r : List Char} {o : Comparison}
    (h : operatorAt? s = some (o, r)) :
    cutOperators none s = consOperator o (cutOperators none r) := by
  rcases operatorAt?_cases h with ⟨c, rfl, ho⟩ | ⟨c, rfl, hhead, ho⟩
  · unfold withEquals? at ho
    split at ho <;> cases ho <;> rw [cutOperators]
  · have hequals : ∀ t, r ≠ '=' :: t := by
      rintro t rfl
      exact hhead rfl
    unfold alone? at ho
    split at ho <;> cases ho <;> rw [cutOperators]
    all_goals exact hequals

theorem cutOperators_char {c : Char} {r : List Char} (h : operatorAt? (c :: r) = none) :
    cutOperators none (c :: r) = consFirst c (cutOperators (afterChar none c) r) := by
  rw [cutOperators]
  -- None of the patterns of an operator matches.
  all_goals
    intros
    subst_vars
    rw [operatorAt?] at h
    split at h <;> first | exact absurd rfl ‹_› | cases h


/-! ## Text without marks -/

/-- The characters that open a quotation, separate sub-conditions or belong to an operator. -/
def marks : List Char :=
  ['\'', '"', ',', '&', '=', '!', '<', '>']

/-- The characters that belong to an operator. -/
def signs : List Char :=
  ['=', '!', '<', '>']

/-- Whether no character of a text is a quote or belongs to an operator. -/
def Quiet (s : List Char) : Prop :=
  ∀ c ∈ s, isQuote c = false ∧ c ∉ signs

theorem isQuote_of_notMem_marks {c : Char} (h : c ∉ marks) : isQuote c = false := by
  simp only [marks, List.mem_cons, List.not_mem_nil, or_false, not_or] at h
  simp [isQuote, h]

theorem unmarked_of_notMem_marks {s : List Char} (h : ∀ c ∈ s, c ∉ marks) :
    Unmarked conjunctions s := by
  intro c hc
  have hmarks := h c hc
  refine ⟨isQuote_of_notMem_marks hmarks, fun sep hsep => ?_⟩
  simp only [marks, List.mem_cons, List.not_mem_nil, or_false, not_or] at hmarks
  rw [conjunctions, List.mem_cons, List.mem_singleton] at hsep
  rcases hsep with rfl | rfl
  · exact ⟨by decide, by simpa using Ne.symm hmarks.2.2.2.1⟩
  · exact ⟨by decide, by simpa using Ne.symm hmarks.2.2.1⟩

theorem operatorAt?_of_notMem_signs {c : Char} (h : c ∉ signs) (r : List Char) :
    operatorAt? (c :: r) = none := by
  have hequals : withEquals? c = none := by
    unfold withEquals?
    split <;> first | rfl | exact absurd (by decide) h
  have halone : alone? c = none := by
    unfold alone?
    split <;> first | rfl | exact absurd (by decide) h
  rw [operatorAt?, hequals, halone, Option.map_none, Option.map_none, ite_self]

theorem notMem_marks_of_isBlank {c : Char} (h : isBlank c = true) : c ∉ marks := by
  intro hmem
  have hmarks : marks.all (fun d => !isBlank d) = true := by decide
  have hc := List.all_eq_true.1 hmarks c hmem
  rw [h] at hc
  cases hc

theorem unmarked_of_blank {s : List Char} (h : Blank s) : Unmarked conjunctions s :=
  unmarked_of_notMem_marks fun c hc => notMem_marks_of_isBlank (h c hc)

theorem quiet_of_notMem_marks {s : List Char} (h : ∀ c ∈ s, c ∉ marks) : Quiet s := by
  have hsigns : signs ⊆ marks := by decide
  exact fun c hc => ⟨isQuote_of_notMem_marks (h c hc), fun hmem => h c hc (hsigns hmem)⟩

/-- Text without quotes and operators in front lengthens the first part. -/
theorem Quiet.cutOperators_append {s : List Char} (h : Quiet s) (t : List Char) :
    cutOperators none (s ++ t) = (s ++ (cutOperators none t).1, (cutOperators none t).2) := by
  induction s with
  | nil => rfl
  | cons c r ih =>
    obtain ⟨hc, hr⟩ := List.forall_mem_cons.1 h
    rw [List.cons_append, cutOperators_char (operatorAt?_of_notMem_signs hc.2 _),
      afterChar_of_not_isQuote hc.1, ih hr]
    rfl

/-- Text without quotes and operators is not cut. -/
theorem Quiet.cutOperators_eq {s : List Char} (h : Quiet s) : cutOperators none s = (s, []) := by
  have hcut := h.cutOperators_append []
  rwa [cutOperators_nil, List.append_nil] at hcut

theorem cutOperators_append {s : List Char} (h : ∀ c ∈ s, c ∉ marks) (t : List Char) :
    cutOperators none (s ++ t) = (s ++ (cutOperators none t).1, (cutOperators none t).2) :=
  (quiet_of_notMem_marks h).cutOperators_append t

theorem cutOperators_blank_append {s : List Char} (h : Blank s) (t : List Char) :
    cutOperators none (s ++ t) = (s ++ (cutOperators none t).1, (cutOperators none t).2) :=
  cutOperators_append (fun c hc => notMem_marks_of_isBlank (h c hc)) t

/-! ## Text behind -/

/-- A cut text with more text behind its last part. -/
def addBehind (b : List Char) :
    List Char → List (Comparison × List Char) → List Char × List (Comparison × List Char)
  | p, [] => (p ++ b, [])
  | p, (o, q) :: r => (p, (o, (addBehind b q r).1) :: (addBehind b q r).2)

theorem addBehind_consFirst (b : List Char) (c : Char)
    (p : List Char × List (Comparison × List Char)) :
    addBehind b (consFirst c p).1 (consFirst c p).2 = consFirst c (addBehind b p.1 p.2) := by
  obtain ⟨first, rest⟩ := p
  cases rest <;> rfl

/-- Text that begins with no equals sign does not change an operator in front of it. -/
theorem operatorAt?_append {c : Char} {b : List Char} (hb : b.head? ≠ some '=') (r : List Char) :
    operatorAt? (c :: (r ++ b)) = (operatorAt? (c :: r)).map fun p => (p.1, p.2 ++ b) := by
  have hhead : (r ++ b).head? = some '=' ↔ r.head? = some '=' := by
    cases r with
    | cons d r => exact Iff.rfl
    | nil => exact iff_of_false hb (fun h => by cases h)
  rw [operatorAt?, operatorAt?]
  by_cases h : r.head? = some '='
  · obtain ⟨t, rfl⟩ := List.head?_eq_some_iff.1 h
    rw [if_pos (hhead.2 h), if_pos h, Option.map_map]
    rfl
  · rw [if_neg fun he => h (hhead.1 he), if_neg h, Option.map_map]
    rfl

/-- An operator opens no quotation. -/
theorem afterText_of_operatorAt? {s r : List Char} {o : Comparison}
    (h : operatorAt? s = some (o, r)) : afterText none s = afterText none r := by
  rcases operatorAt?_cases h with ⟨c, rfl, ho⟩ | ⟨c, rfl, -, ho⟩
  · unfold withEquals? at ho
    split at ho <;> cases ho <;> rfl
  · unfold alone? at ho
    split at ho <;> cases ho <;> rfl

theorem quiet_of_blank {b : List Char} (hb : Blank b) : Quiet b :=
  quiet_of_notMem_marks fun c hc => notMem_marks_of_isBlank (hb c hc)

theorem cutOperators_blank (quote : Option Char) {b : List Char} (hb : Blank b) :
    cutOperators quote b = (b, []) := by
  cases quote with
  | none => exact (quiet_of_blank hb).cutOperators_eq
  | some q =>
    -- The quotation may end among the blanks, but nothing in them is an operator.
    induction b generalizing q with
    | nil => exact cutOperators_nil (some q)
    | cons c r ih =>
      obtain ⟨hc, hr⟩ := List.forall_mem_cons.1 hb
      rw [cutOperators_quoted, afterChar]
      split
      · rw [(quiet_of_blank hr).cutOperators_eq]
        rfl
      · rw [ih hr]
        rfl

/-- Text in which no operator stands lengthens the last part of a text in front of it. -/
theorem cutOperators_append_behind {b : List Char} (hhead : b.head? ≠ some '=')
    {quote : Option Char} {s : List Char} (hb : cutOperators (afterText quote s) b = (b, [])) :
    cutOperators quote (s ++ b) =
      addBehind b (cutOperators quote s).1 (cutOperators quote s).2 := by
  -- The induction is on the length, since an operator takes one character or two.
  induction hn : s.length using Nat.strongRecOn generalizing quote s with
  | ind n ih =>
    cases s with
    | nil =>
      have hcut : cutOperators quote b = (b, []) := hb
      rw [List.nil_append, hcut, cutOperators_nil]
      rfl
    | cons c r =>
      have hr : r.length < n := by
        rw [← hn]
        exact Nat.lt_succ_self r.length
      have hnext : cutOperators (afterChar quote c) (r ++ b) =
          addBehind b (cutOperators (afterChar quote c) r).1
            (cutOperators (afterChar quote c) r).2 := ih r.length hr hb rfl
      cases quote with
      | some q =>
        rw [List.cons_append, cutOperators_quoted, cutOperators_quoted, addBehind_consFirst, hnext]
      | none =>
        cases ho : operatorAt? (c :: r) with
        | none =>
          have hob : operatorAt? (c :: (r ++ b)) = none := by
            rw [operatorAt?_append hhead, ho]
            rfl
          rw [List.cons_append, cutOperators_char hob, cutOperators_char ho, addBehind_consFirst,
            hnext]
        | some p =>
          obtain ⟨o, rest⟩ := p
          have hob : operatorAt? (c :: (r ++ b)) = some (o, rest ++ b) := by
            rw [operatorAt?_append hhead, ho]
            rfl
          have hrest : rest.length < n := hn ▸ length_lt_of_operatorAt? ho
          rw [afterText_of_operatorAt? ho] at hb
          rw [List.cons_append, cutOperators_operator hob, cutOperators_operator ho,
            ih rest.length hrest hb rfl]
          rfl

/-- Blanks at the end of a text lengthen its last part. -/
theorem cutOperators_append_blank {b : List Char} (hb : Blank b) (quote : Option Char)
    (s : List Char) :
    cutOperators quote (s ++ b) =
      addBehind b (cutOperators quote s).1 (cutOperators quote s).2 := by
  refine cutOperators_append_behind (fun hhead => ?_) (cutOperators_blank _ hb)
  exact absurd (hb '=' (List.mem_of_head? hhead)) (by decide)

/-! ## Tokens -/

theorem operandTokens_append_blank (s : List Char) {b : List Char} (hb : Blank b) :
    operandTokens (s ++ b) = operandTokens s := by
  rw [operandTokens, operandTokens, trim_append_blank s hb]

/-- The pieces of a cut text. -/
def tokensOf (p : List Char × List (Comparison × List Char)) : List Token :=
  operandTokens p.1 ++ p.2.flatMap fun q => .op q.1 :: operandTokens q.2

theorem tokensOf_cons (p q : List Char) (o : Comparison) (r : List (Comparison × List Char)) :
    tokensOf (p, (o, q) :: r) = operandTokens p ++ .op o :: tokensOf (q, r) :=
  rfl

theorem tokensOf_addBehind {b : List Char} (hb : Blank b) (p : List Char)
    (r : List (Comparison × List Char)) : tokensOf (addBehind b p r) = tokensOf (p, r) := by
  induction r generalizing p with
  | nil =>
    rw [addBehind, tokensOf, tokensOf]
    dsimp only
    rw [operandTokens_append_blank p hb]
  | cons e r ih =>
    obtain ⟨o, q⟩ := e
    rw [addBehind, tokensOf_cons, tokensOf_cons, ← ih q]

/-- Blanks around a condition do not count. -/
theorem tokenize_trim (s : List Char) : tokenize (trim s) = tokenize s := by
  obtain ⟨front, back, hfront, hback, hs⟩ := exists_eq_append_trim s
  have hcut : tokensOf (cutOperators none (trim s ++ back)) = tokenize (trim s) := by
    rw [cutOperators_append_blank hback, tokensOf_addBehind hback]
    rfl
  rw [← hcut]
  conv_rhs => rw [hs]
  show _ = tokensOf (cutOperators none (front ++ (trim s ++ back)))
  rw [cutOperators_blank_append hfront, tokensOf, tokensOf, operandTokens, operandTokens,
    trim_append hfront]

end Storyline.Expr
