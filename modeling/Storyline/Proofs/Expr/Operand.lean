import Storyline.Proofs.Expr.Conjunction
import Storyline.Proofs.Expr.Tag
import Storyline.Proofs.Number.Numeral
import Storyline.Proofs.Value.Text

/-!
# Operands in front

A text without marks in front of a comparison is its first operand. The condition then says
something of the value of that operand only, so another text in its place gives the same verdict if
the operators cannot tell the two values apart.

## Main definitions

* `Bare`: a text that can stand as one operand, without quotes
* `Alike`: two values that an operator cannot tell apart
* `IsVariable`: the names of variables that are no literals

## Main results

* `tokenize_bare_append`: a bare text in front is the first operand
* `result_evaluateChars_bare`: the verdict on a condition depends on the value of that operand
* `resolve_bool`, `resolve_intDigits`, `resolve_plain`: what operands stand for
-/

namespace Storyline.Expr

open Text

/-! ## Bare texts -/

/-- A text that can stand as one operand, without quotes. -/
structure Bare (s : List Char) : Prop where
  plain : ∀ c ∈ s, c ∉ marks
  not_blank : ¬Blank s

section

variable {u v r p t : List Char} {ps : List (List Char)} {o : Comparison} {state : State}

theorem Bare.trim_ne_nil (h : Bare u) : trim u ≠ [] :=
  fun hnil => h.not_blank (trim_eq_nil_iff.1 hnil)

theorem Bare.append_blank (h : Bare u) {b : List Char} (hb : Blank b) : Bare (u ++ b) where
  plain c hc := by
    rcases List.mem_append.1 hc with hc | hc
    · exact h.plain c hc
    · exact notMem_marks_of_isBlank (hb c hc)
  not_blank hall := h.not_blank fun c hc => hall c (List.mem_append_left b hc)

theorem Bare.append_not_blank (h : Bare u) (r : List Char) : ¬Blank (u ++ r) :=
  fun hall => h.not_blank fun c hc => hall c (List.mem_append_left r hc)

/-- A bare text in front of an operator is the first operand. -/
theorem tokenize_bare_append (h : Bare u) (hr : operatorAt? r = some (o, t)) :
    ∃ l, tokenize (u ++ r) = .operand (trim u) :: .op o :: l ∧ tokenize r = .op o :: l := by
  have hcut := cutOperators_operator hr
  have hoperand : operandTokens u = [.operand (trim u)] := by
    rw [operandTokens]
    split
    · next hnil => exact absurd hnil h.trim_ne_nil
    · rfl
  refine ⟨tokensOf (cutOperators none t), ?_, ?_⟩
  · rw [tokenize, cutOperators_append h.plain, hcut]
    show operandTokens (u ++ []) ++ _ = _
    rw [List.append_nil, hoperand]
    rfl
  · rw [tokenize, hcut]
    rfl

/-! ## Sub-conditions with an operand in front -/

theorem unmarked_of_withEquals? {c : Char} (h : withEquals? c = some o) :
    Unmarked conjunctions [c, '='] := by
  unfold withEquals? at h
  split at h <;> cases h <;> simp [Unmarked, conjunctions, isQuote]

theorem unmarked_of_alone? {c : Char} (h : alone? c = some o) : Unmarked conjunctions [c] := by
  unfold alone? at h
  split at h <;> cases h <;> simp [Unmarked, conjunctions, isQuote]

/-- What follows an operator up to the first separator still begins with the operator. -/
theorem operatorAt?_of_splitOutside (hr : operatorAt? r = some (o, t))
    (hcut : splitOutside conjunctions none r = p :: ps) : ∃ t', operatorAt? p = some (o, t') := by
  obtain ⟨q, qs, hq, hprefix, -⟩ := uncut_of_splitOutside conjunctions none t
  -- No separator begins with a sign, so the first part is the operator and the first part of the
  -- text after it.
  rcases operatorAt?_cases hr with ⟨c, rfl, ho⟩ | ⟨c, rfl, hhead, ho⟩
  · have happend := splitOutside_append (unmarked_of_withEquals? ho) hq
    obtain ⟨rfl, -⟩ := List.cons.inj (hcut.symm.trans happend)
    exact ⟨q, by simp [operatorAt?, ho]⟩
  · have happend := splitOutside_append (unmarked_of_alone? ho) hq
    obtain ⟨rfl, -⟩ := List.cons.inj (hcut.symm.trans happend)
    have hhead' : q.head? ≠ some '=' := by
      intro hq
      obtain ⟨x, rfl⟩ := List.head?_eq_some_iff.1 hq
      obtain ⟨y, rfl⟩ := hprefix
      exact hhead rfl
    exact ⟨q, by simp [operatorAt?, ho, hhead']⟩

/-- A bare text in front belongs to the first sub-condition. -/
theorem subconditions_bare_append (h : Bare u)
    (hcut : splitOutside conjunctions none r = p :: ps) :
    subconditions (u ++ r) = trim (u ++ p) :: (ps.map trim).filter (· ≠ []) := by
  have hne : trim (u ++ p) ≠ [] := fun hnil =>
    h.append_not_blank p (trim_eq_nil_iff.1 hnil)
  have happend : split ["&&".toList, ",".toList] (u ++ r) = (u ++ p) :: ps :=
    splitOutside_append (unmarked_of_notMem_marks h.plain) hcut
  rw [subconditions, happend, List.map_cons, List.filter_cons_of_pos (by simpa using hne)]

/-! ## The verdict -/

/-- Two comparisons with one operator and one rest agree if the operator does not tell the values
of their first operands apart. -/
theorem result_evaluateSingle_operand {a b : List Char} {x y : Operand} {l : List Token}
    (hu : tokenize u = .operand a :: .op o :: l) (hv : tokenize v = .operand b :: .op o :: l)
    (ha : resolve a state = .ok x) (hb : resolve b state = .ok y)
    (hxy : ∀ z, compare o x z = compare o y z) :
    (evaluateSingle u state).result = (evaluateSingle v state).result := by
  unfold evaluateSingle
  rw [hu, hv]
  -- Only one operand after the operator makes a comparison; anything else is warned of in both.
  rcases l with _ | ⟨_ | _, _ | _⟩
  · rfl
  · dsimp only
    rw [ha, hb]
    show (resolve _ state >>= fun z => compare o x z) = resolve _ state >>= fun z => compare o y z
    simp only [hxy]
  · rfl
  · rfl
  · rfl

/-- **A condition with a bare text in front of an operator depends on the value of that operand
only.** -/
theorem result_evaluateChars_bare {x y : Operand} (hu : Bare u) (hv : Bare v)
    (hr : operatorAt? r = some (o, t)) (hux : resolve (trim u) state = .ok x)
    (hvy : resolve (trim v) state = .ok y) (hxy : ∀ z, compare o x z = compare o y z) :
    (evaluateChars (u ++ r) state).result = (evaluateChars (v ++ r) state).result := by
  have hsingle {r t : List Char} (hr : operatorAt? r = some (o, t)) :
      (evaluateSingle (u ++ r) state).result = (evaluateSingle (v ++ r) state).result := by
    obtain ⟨l, hul, hl⟩ := tokenize_bare_append hu hr
    obtain ⟨l', hvl, hl'⟩ := tokenize_bare_append hv hr
    obtain rfl : l = l' := by simpa using hl.symm.trans hl'
    exact result_evaluateSingle_operand hul hvl hux hvy hxy
  obtain ⟨p, ps, hcut, -⟩ := uncut_of_splitOutside conjunctions none r
  obtain ⟨t', hp⟩ := operatorAt?_of_splitOutside hr hcut
  have husub := subconditions_bare_append hu hcut
  have hvsub := subconditions_bare_append hv hcut
  -- What stands after the first separator is the same in both, so both have as many sub-conditions.
  by_cases hrest : (ps.map trim).filter (· ≠ []) = []
  · rw [evaluateChars_of_single (by rw [husub, hrest]; rfl),
      evaluateChars_of_single (by rw [hvsub, hrest]; rfl)]
    exact hsingle hr
  · have hmany (s : List Char) : 1 < (s :: (ps.map trim).filter (· ≠ [])).length :=
      Nat.succ_lt_succ (List.length_pos_iff.2 hrest)
    have hfirst {w : List Char} (hw : Bare w) :
        (evaluateChars (trim (w ++ p)) state).result = (evaluateSingle (w ++ p) state).result := by
      have happend := splitOutside_append (unmarked_of_notMem_marks hw.plain) hcut
      have hmem : w ++ p ∈ splitOutside conjunctions none (w ++ r) := by
        rw [happend]
        exact List.mem_cons_self
      exact result_evaluateChars_trim (uncut_of_mem_splitOutside hmem)
        (fun hnil => hw.append_not_blank p (trim_eq_nil_iff.1 hnil)) state
    rw [evaluateChars_of_many (husub ▸ hmany _), evaluateChars_of_many (hvsub ▸ hmany _), husub,
      hvsub, allHold, allHold, Logged.result_bind, Logged.result_bind, hfirst hu, hfirst hv,
      hsingle hp]

/-! ## Values that an operator cannot tell apart -/

/-- Whether an operator compares by order. -/
def Comparison.isOrder : Comparison → Bool
  | .eq | .ne => false
  | .ge | .le | .gt | .lt => true

/-- Whether an operator cannot tell two values apart: the operators of order see numbers only. -/
def Alike (o : Comparison) (a b : Operand) : Prop :=
  if o.isOrder then a.toFloat = b.toFloat else a = b

theorem Alike.refl (o : Comparison) (a : Operand) : Alike o a a := by
  unfold Alike
  split <;> rfl

theorem Alike.compare_eq {a b : Operand} (h : Alike o a b) (c : Operand) :
    compare o a c = compare o b c := by
  unfold Alike at h
  split at h
  · next horder =>
    have hordered (f : Float → Float → Bool) :
        compare.ordered a c f = compare.ordered b c f := by
      rw [compare.ordered, compare.ordered, h]
    cases o with
    | eq | ne => cases horder
    | ge | le | gt | lt => exact hordered _
  · rw [h]

/-- Whether a text starts with an operator, whichever is read there, is told from its signs. -/
theorem exists_operatorAt? {s : List Char} (h : o.text.toList <+: s) :
    ∃ o' t, operatorAt? s = some (o', t) ∧ o'.isOrder = o.isOrder := by
  obtain ⟨t, rfl⟩ := h
  cases o with
  | eq => exact ⟨.eq, t, rfl, rfl⟩
  | ne => exact ⟨.ne, t, rfl, rfl⟩
  | ge => exact ⟨.ge, t, rfl, rfl⟩
  | le => exact ⟨.le, t, rfl, rfl⟩
  | gt =>
    by_cases hhead : t.head? = some '='
    · exact ⟨.ge, t.tail, if_pos hhead, rfl⟩
    · exact ⟨.gt, t, if_neg hhead, rfl⟩
  | lt =>
    by_cases hhead : t.head? = some '='
    · exact ⟨.le, t.tail, if_pos hhead, rfl⟩
    · exact ⟨.lt, t, if_neg hhead, rfl⟩

/-! ## What operands stand for -/

theorem notMem_marks_of_isWord {c : Char} (h : isWord c = true) : c ∉ marks := by
  simpa using of_isWord (p := fun c => decide (c ∉ marks)) (by decide) h

theorem notMem_marks_of_isNumeral {c : Char} (h : Number.isNumeral c = true) : c ∉ marks := by
  have hmarks : marks.all (fun d => !Number.isNumeral d) = true := by decide
  intro hmem
  simpa [h] using List.all_eq_true.1 hmarks c hmem

theorem bare_of_isWord {s : List Char} (hne : s ≠ []) (h : ∀ c ∈ s, isWord c = true) : Bare s where
  plain c hc := notMem_marks_of_isWord (h c hc)
  not_blank := (filled_of_forall hne fun c hc => isBlank_of_isWord (h c hc)).not_blank

theorem resolve_bool (b : Bool) (state : State) :
    resolve (if b then "true" else "false").toList state = .ok (some (.bool b)) := by
  cases b <;> rfl

theorem bare_bool (b : Bool) : Bare (if b then "true" else "false").toList := by
  cases b <;> exact bare_of_isWord (by decide) (List.all_eq_true.1 (by decide))

theorem bare_intDigits (n : Int) : Bare (Number.intDigits n) where
  plain c hc := by
    have hfigure := (Yaml.figures_intDigits n).figure c hc
    simpa using Yaml.of_mem_figures (p := fun c => decide (c ∉ marks)) hfigure (by decide)
  not_blank hblank := (filled_intDigits n).not_blank hblank

/-- The text of an integer with not too many digits is a literal for it. -/
theorem readLiteral_intDigits {n : Int} (h : (Nat.toDigits 10 n.natAbs).length ≤ digitLimit) :
    Number.readLiteral (Number.intDigits n) = .ok (some (.int n)) := by
  have hdigits : ∀ c ∈ Nat.toDigits 10 n.natAbs, c.isDigit = true :=
    fun c hc => Number.isDigit_of_mem_toDigits hc
  have hread : Number.integerDigits? (Number.intDigits n) =
      some (decide (n < 0), (Nat.toDigits 10 n.natAbs).map fun c => c.toNat - 48) := by
    obtain ⟨c, r, hc, hr, hcr, htext⟩ := Yaml.exists_intDigits n
    rw [hcr] at hdigits ⊢
    rw [htext]
    by_cases hn : n < 0
    · rw [decide_eq_true hn, if_pos rfl]
      exact Number.integerDigits?_signed true (List.cons_ne_nil c r) hdigits
    · have hsplit := Number.splitDigits_append (r := []) hdigits (by simp)
      rw [List.append_nil] at hsplit
      rw [decide_eq_false hn, if_neg Bool.false_ne_true, Number.integerDigits?,
        Number.splitSign_of_isDigit hc]
      dsimp only
      rw [hsplit]
      rfl
  have hvalue : (if decide (n < 0) then -(n.natAbs : Int) else n.natAbs) = n := by
    by_cases hn : n < 0
    · rw [decide_eq_true hn, if_pos rfl]
      omega
    · rw [decide_eq_false hn, if_neg Bool.false_ne_true]
      omega
  rw [Number.readLiteral, (filled_intDigits n).2, hread]
  dsimp only
  rw [Number.ofSignedDigits, List.length_map, if_neg (Nat.not_lt.2 h), Number.ofDigits_map,
    Nat.ofDigitChars_ten_toDigits]
  exact congrArg (fun m => Except.ok (some (Number.int m))) hvalue

theorem resolve_intDigits {n : Int} (h : (Nat.toDigits 10 n.natAbs).length ≤ digitLimit)
    (state : State) : resolve (Number.intDigits n) state = .ok (some (.int n)) := by
  have hne {word : List Char} {c : Char} (hmem : c ∈ word) (hc : c ∉ Yaml.figures) :
      Number.intDigits n ≠ word := by
    intro hword
    exact hc ((Yaml.figures_intDigits n).figure c (hword ▸ hmem))
  have htrue : Number.intDigits n ≠ "true".toList :=
    hne (c := 't') (by decide +kernel) (by decide)
  have hfalse : Number.intDigits n ≠ "false".toList :=
    hne (c := 's') (by decide +kernel) (by decide)
  rw [resolve, if_neg htrue, if_neg hfalse, readLiteral_intDigits h]
  rfl

/-- A text that does not begin with a quote is not between quotes. -/
theorem unquoted?_of_plain {s : List Char} (h : ∀ c ∈ s, c ∉ marks) : unquoted? s = none := by
  unfold unquoted?
  split
  · next a b ha hb =>
    rw [isQuote_of_notMem_marks (h a (List.mem_of_head? ha))]
    rfl
  · rfl

/-- A text without marks that is no literal is the name of a variable. -/
theorem resolve_plain {s : List Char} (hplain : ∀ c ∈ s, c ∉ marks) (htrue : s ≠ "true".toList)
    (hfalse : s ≠ "false".toList) (hread : Number.readLiteral s = .ok none) (state : State) :
    resolve s state = .ok (state.get? (String.ofList s)) := by
  rw [resolve, if_neg htrue, if_neg hfalse, hread, unquoted?_of_plain hplain]
  rfl

/-- Whether a text is the name of a variable and no literal. -/
structure IsVariable (name : List Char) : Prop where
  ne_nil : name ≠ []
  word : ∀ c ∈ name, isWord c = true
  ne_true : name ≠ "true".toList
  ne_false : name ≠ "false".toList
  not_number : Number.readLiteral name = .ok none

theorem IsVariable.bare {name : List Char} (h : IsVariable name) : Bare name :=
  bare_of_isWord h.ne_nil h.word

theorem IsVariable.trim_eq {name : List Char} (h : IsVariable name) : trim name = name :=
  trim_of_forall fun c hc => isBlank_of_isWord (h.word c hc)

theorem IsVariable.resolve_eq {name : List Char} (h : IsVariable name) (state : State) :
    resolve name state = .ok (state.get? (String.ofList name)) :=
  resolve_plain h.bare.plain h.ne_true h.ne_false h.not_number state

end

end Storyline.Expr
