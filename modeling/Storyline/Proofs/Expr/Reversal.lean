import Storyline.Proofs.Expr.Quotation
import Storyline.Proofs.Scalar

/-!
# Comparisons and their reversals

A comparison of two operands is read as it is written, with blanks around the operands or without,
and its verdict is told from their values: by the equality across kinds, or by the order of the
numbers that they stand for. Turned around, with the operator turned as well, it says the same.

## Main definitions

* `Compares`, `comparison`: a condition that is a comparison of two operands
* `Comparison.flipped`: an operator with its sides changed over
* `Ordered`, `Verdict`: what a comparison says of two values

## Main results

* `Compares.tokenize_eq`, `Compares.evaluate_eq`: how a comparison is read
* `compare_eq_ok_iff`: the verdict on two values
* `verdict_flipped`: the verdict on the values changed over
* `evaluate_comparison`: a comparison and its reversal
-/

namespace Storyline

namespace Expr

open Text

/-! ## Reading a comparison -/

/-- Whether a condition compares two operands, with any blanks around them. -/
def Compares (condition : String) (left : List Char) (o : Comparison) (right : List Char) : Prop :=
  ∃ a b c d, Blank a ∧ Blank b ∧ Blank c ∧ Blank d ∧
    condition.toList = a ++ (left ++ (b ++ (o.text.toList ++ (c ++ (right ++ d)))))

/-- A comparison as it is written, with a space on either side of its operator. -/
def comparison (left : List Char) (o : Comparison) (right : List Char) : List Char :=
  left ++ [' '] ++ o.text.toList ++ [' '] ++ right

section

variable {condition reversed : String} {left right s t : List Char} {o : Comparison}

/-- An operator is read where it is written, unless an equals sign behind it makes it longer. -/
theorem operatorAt?_text (h : t.head? ≠ some '=') (o : Comparison) :
    operatorAt? (o.text.toList ++ t) = some (o, t) := by
  cases o with
  | eq | ne | ge | le => rfl
  | gt | lt => exact if_neg h

theorem unmarked_text (o : Comparison) : Unmarked conjunctions o.text.toList := by
  cases o <;> simp [Unmarked, conjunctions, isQuote, Comparison.text]

/-- No operand begins with an equals sign. -/
theorem IsOperand.head?_ne (h : IsOperand s) : s.head? ≠ some '=' := by
  intro hhead
  cases h with
  | plain filled plain => exact plain '=' (List.mem_of_head? hhead) (by decide)
  | quoted hq hv =>
    cases hhead
    cases hq

theorem head?_blank_append_ne {b : List Char} (hb : Blank b) (hs : s.head? ≠ some '=')
    (hne : s ≠ []) (t : List Char) : (b ++ (s ++ t)).head? ≠ some '=' := by
  cases b with
  | nil =>
    obtain ⟨c, r, rfl⟩ := List.exists_cons_of_ne_nil hne
    exact hs
  | cons c r =>
    rintro ⟨⟩
    exact absurd (hb '=' List.mem_cons_self) (by decide)

/-- Blanks around an operand do not count. -/
theorem operandTokens_between {a b : List Char} (ha : Blank a) (hb : Blank b) (hs : Filled s) :
    operandTokens (a ++ (s ++ b)) = [.operand s] := by
  rw [operandTokens, trim_append ha, trim_append_blank s hb, hs.2]
  obtain ⟨c, r, rfl⟩ := List.exists_cons_of_ne_nil hs.1
  rfl

theorem compares_comparison (left : List Char) (o : Comparison) (right : List Char) :
    Compares (String.ofList (comparison left o right)) left o right := by
  have hnil : Blank [] := List.forall_mem_nil _
  refine ⟨[], [' '], [' '], [], hnil, blank_space, blank_space, hnil, ?_⟩
  simp [comparison]

namespace Compares

/-- **A comparison is read as it is written.** -/
theorem tokenize_eq (h : Compares condition left o right) (hleft : IsOperand left)
    (hright : IsOperand right) :
    tokenize condition.toList = [.operand left, .op o, .operand right] := by
  obtain ⟨a, b, c, d, ha, hb, hc, hd, htext⟩ := h
  -- The operator is not made longer, because no operand begins with an equals sign.
  have hop : operatorAt? (o.text.toList ++ (c ++ (right ++ d))) = some (o, c ++ (right ++ d)) :=
    operatorAt?_text (head?_blank_append_ne hc hright.head?_ne hright.filled.1 d) o
  have hrest : cutOperators none (c ++ (right ++ d)) = (c ++ (right ++ d), []) := by
    rw [cutOperators_blank_append hc, hright.cutOperators_append, cutOperators_blank none hd]
  have hcut : cutOperators none condition.toList =
      (a ++ (left ++ b), [(o, c ++ (right ++ d))]) := by
    rw [htext, cutOperators_blank_append ha, hleft.cutOperators_append,
      cutOperators_blank_append hb, cutOperators_operator hop, hrest]
    simp [consOperator]
  rw [tokenize, hcut]
  dsimp only
  rw [operandTokens_between ha hb hleft.filled, List.flatMap_singleton,
    operandTokens_between hc hd hright.filled]
  rfl

/-- A comparison is one sub-condition. -/
theorem uncut (h : Compares condition left o right) (hleft : IsOperand left)
    (hright : IsOperand right) : Uncut conjunctions none condition.toList := by
  obtain ⟨a, b, c, d, ha, hb, hc, hd, htext⟩ := h
  rw [htext, uncut_append_of_unmarked (unmarked_of_blank ha), hleft.uncut_append_iff,
    uncut_append_of_unmarked (unmarked_of_blank hb), uncut_append_of_unmarked (unmarked_text o),
    uncut_append_of_unmarked (unmarked_of_blank hc), hright.uncut_append_iff]
  exact (unmarked_of_blank hd).uncut

/-- A comparison compares the values of its operands and warns of nothing. -/
theorem evaluate_eq (h : Compares condition left o right) (hleft : IsOperand left)
    (hright : IsOperand right) (state : State) :
    evaluate (some condition) state = Logged.lift (do
      let x ← resolve left state
      let y ← resolve right state
      compare o x y) := by
  have htrim : trim condition.toList ≠ [] := by
    obtain ⟨a, b, c, d, -, -, -, -, htext⟩ := h
    intro hnil
    -- Then the first operand would be blank too.
    have hblank : Blank condition.toList := trim_eq_nil_iff.1 hnil
    rw [htext] at hblank
    apply hleft.filled.not_blank
    intro x hx
    apply hblank x
    exact List.mem_append_right a (List.mem_append_left _ hx)
  rw [evaluate, evaluateChars_of_uncut (h.uncut hleft hright) htrim, evaluateSingle,
    h.tokenize_eq hleft hright]

end Compares

/-! ## The verdict -/

/-- Whether an order holds between the numbers of two values, or does not: it does not where one of
them is no number. -/
def Ordered (r : Float → Float → Prop) (x y : Operand) (holds : Bool) : Prop :=
  ∃ p q, x.toFloat = .ok p ∧ y.toFloat = .ok q ∧
    (holds = true ↔ p.isNaN = false ∧ q.isNaN = false ∧ r p q)

/-- What an operator says of two values. -/
def Verdict : Comparison → Operand → Operand → Bool → Prop
  | .eq, x, y, holds => x.looseEquals y = .ok holds
  | .ne, x, y, holds => x.looseEquals y = .ok !holds
  | .ge, x, y, holds => Ordered (· ≥ ·) x y holds
  | .le, x, y, holds => Ordered (· ≤ ·) x y holds
  | .gt, x, y, holds => Ordered (· > ·) x y holds
  | .lt, x, y, holds => Ordered (· < ·) x y holds

variable {x y : Operand} {holds : Bool}

theorem ordered_eq_ok_iff {f : Float → Float → Bool} {r : Float → Float → Prop}
    (hf : ∀ p q, f p q = true ↔ r p q) :
    compare.ordered x y f = .ok holds ↔ Ordered r x y holds := by
  have hverdict (p q : Float) :
      (!p.isNaN && !q.isNaN && f p q) = holds ↔
        (holds = true ↔ p.isNaN = false ∧ q.isNaN = false ∧ r p q) := by
    rw [Bool.eq_iff_iff, Bool.and_eq_true, Bool.and_eq_true, Bool.not_eq_true', Bool.not_eq_true',
      hf, and_assoc]
    exact Iff.comm
  constructor
  · intro h
    obtain ⟨p, hp, h⟩ := Except.bind_eq_ok_iff.1 h
    obtain ⟨q, hq, h⟩ := Except.bind_eq_ok_iff.1 h
    exact ⟨p, q, hp, hq, (hverdict p q).1 (Except.ok.inj h)⟩
  · rintro ⟨p, q, hp, hq, h⟩
    rw [compare.ordered, hp, hq]
    exact congrArg Except.ok ((hverdict p q).2 h)

/-- **What two values are found to be under an operator is its verdict on them.** -/
theorem compare_eq_ok_iff : compare o x y = .ok holds ↔ Verdict o x y holds := by
  cases o with
  | eq => rfl
  | ne =>
    show (x.looseEquals y >>= fun b => .ok !b) = .ok holds ↔ x.looseEquals y = .ok !holds
    constructor
    · intro h
      obtain ⟨b, hb, h⟩ := Except.bind_eq_ok_iff.1 h
      cases h
      rw [hb, Bool.not_not]
    · intro h
      rw [h]
      exact congrArg Except.ok (Bool.not_not holds)
  | ge | le | gt | lt => exact ordered_eq_ok_iff fun p q => decide_eq_true_iff

/-! ## Changing sides -/

/-- An operator with its sides changed over. -/
def Comparison.flipped : Comparison → Comparison
  | .eq => .eq
  | .ne => .ne
  | .ge => .le
  | .le => .ge
  | .gt => .lt
  | .lt => .gt

theorem ordered_swap {r : Float → Float → Prop} :
    Ordered r x y holds ↔ Ordered (fun p q => r q p) y x holds := by
  constructor
  · rintro ⟨p, q, hp, hq, h⟩
    exact ⟨q, p, hq, hp, h.trans and_left_comm⟩
  · rintro ⟨q, p, hq, hp, h⟩
    exact ⟨p, q, hp, hq, h.trans and_left_comm⟩

/-- **With the values changed over and the operator as well, the verdict is the same.** -/
theorem verdict_flipped : Verdict o.flipped y x holds ↔ Verdict o x y holds := by
  cases o with
  | eq => exact iff_of_eq (congrArg (· = _) (Operand.looseEquals_comm y x))
  | ne => exact iff_of_eq (congrArg (· = _) (Operand.looseEquals_comm y x))
  | ge | le | gt | lt => exact ordered_swap

/-- **A comparison says what the operator says of the values of its operands, and its reversal says
the same**, whatever blanks there are in either of them. Neither says anything where an operand
cannot be read or a value is too large to be compared as a number. -/
theorem evaluate_comparison (hleft : IsOperand left) (hright : IsOperand right)
    (h : Compares condition left o right) (hreversed : Compares reversed right o.flipped left)
    (state : State) (holds : Bool) :
    ((evaluate (some condition) state).result = .ok holds ↔
        ∃ x y, resolve left state = .ok x ∧ resolve right state = .ok y ∧ Verdict o x y holds) ∧
      ((evaluate (some condition) state).result = .ok holds ↔
        (evaluate (some reversed) state).result = .ok holds) := by
  -- Said of any comparison, since the reversal is one as well.
  have hverdict {condition : String} {left right : List Char} {o : Comparison}
      (h : Compares condition left o right) (hleft : IsOperand left) (hright : IsOperand right) :
      (evaluate (some condition) state).result = .ok holds ↔
        ∃ x y, resolve left state = .ok x ∧ resolve right state = .ok y ∧ Verdict o x y holds := by
    rw [h.evaluate_eq hleft hright, Logged.result_lift, Except.bind_eq_ok_iff]
    simp only [Except.bind_eq_ok_iff, compare_eq_ok_iff, exists_and_left]
  refine ⟨hverdict h hleft hright, ?_⟩
  rw [hverdict h hleft hright, hverdict hreversed hright hleft, exists_comm]
  refine exists_congr fun y => exists_congr fun x => ?_
  rw [verdict_flipped, and_left_comm]

end

/-- A riddle with a hint that holds separators and operators. -/
def riddle : State :=
  Mapping.ofList [("hint", .str "gold > 5, silver")]

/-- The hint is not the text with more blanks in it. -/
theorem riddle_differs :
    IsOperand "hint".toList ∧ IsOperand (quotation '\'' "gold > 5,  silver".toList) ∧
      Compares "hint!='gold > 5,  silver' " "hint".toList .ne
        (quotation '\'' "gold > 5,  silver".toList) ∧
      Compares "'gold > 5,  silver' !=\thint" (quotation '\'' "gold > 5,  silver".toList) .ne
        "hint".toList ∧
      (evaluate (some "hint!='gold > 5,  silver' ") riddle).result = .ok true ∧
      (evaluate (some "'gold > 5,  silver' !=\thint") riddle).result = .ok true := by
  have hhint : IsVariable "hint".toList :=
    ⟨by decide, List.all_eq_true.1 (by decide), by decide, by decide, by rfl⟩
  have hleft : IsOperand "hint".toList := .plain ⟨hhint.ne_nil, hhint.trim_eq⟩ hhint.bare.plain
  have hright : IsOperand (quotation '\'' "gold > 5,  silver".toList) :=
    .quoted (by decide) (by decide)
  have hnil : Blank [] := List.forall_mem_nil _
  have htab : Blank ['\t'] := by simp [Blank, isBlank, isAsciiBlank]
  have hcondition : Compares "hint!='gold > 5,  silver' " "hint".toList .ne
      (quotation '\'' "gold > 5,  silver".toList) :=
    ⟨[], [], [], [' '], hnil, hnil, hnil, blank_space, by decide⟩
  have hreversed : Compares "'gold > 5,  silver' !=\thint"
      (quotation '\'' "gold > 5,  silver".toList) .ne "hint".toList :=
    ⟨[], [' '], ['\t'], [], hnil, blank_space, htab, hnil, by decide⟩
  obtain ⟨hverdict, hsame⟩ := evaluate_comparison hleft hright hcondition hreversed riddle true
  have htrue := hverdict.2 ⟨_, _, hhint.resolve_eq riddle, resolve_quotation (by decide) _ riddle,
    by rfl⟩
  exact ⟨hleft, hright, hcondition, hreversed, htrue, hsame.1 htrue⟩

end Expr

end Storyline
