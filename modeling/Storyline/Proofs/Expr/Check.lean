import Storyline.Expr.Assignment
import Storyline.Proofs.Expr.Conjunction
import Storyline.Proofs.Outcome

/-!
# Checks without a state

A story is checked for conditions and assignments that cannot be carried out before there is a
state. What the checks say holds in every state: a condition that passes is evaluated without a
warning, and an instruction warns of exactly the assignments that the check has found.

A condition of one sub-condition is evaluated as it stands, with the separators around that part,
while the check reads the part alone. Separators and blanks are part of no operator, so both read
operands and operators in the same order.

## Main definitions

* `Loose`: separators and blanks, as they may stand around a sub-condition
* `isInvalidAssignment`: the warnings of assignments that no state lets run

## Main results

* `exists_of_subconditions`: a condition of one sub-condition is that part between loose texts
* `wellFormed_tokenize`: the condition is of the shape that its sub-condition has
* `evaluate_silent`: a condition that passes its check is evaluated without a warning
* `execute_problems`: the unusable assignments that an instruction warns of
-/

namespace Storyline.Expr

open Text

/-! ## Separators and blanks -/

/-- Whether a text is made of separators and blanks, with single ampersands among them. -/
def Loose (s : List Char) : Prop :=
  ∀ c ∈ s, isBlank c = true ∨ c = ',' ∨ c = '&'

section

variable {s t u v p : List Char} {ps : List (List Char)} {quote : Option Char} {c : Char}

theorem Loose.append (hs : Loose s) (ht : Loose t) : Loose (s ++ t) :=
  List.forall_mem_append.2 ⟨hs, ht⟩

theorem Loose.cons (hc : isBlank c = true) (hs : Loose s) : Loose (c :: s) :=
  List.forall_mem_cons.2 ⟨.inl hc, hs⟩

theorem loose_of_mem_conjunctions (h : s ∈ conjunctions) : Loose s := by
  rw [conjunctions, List.mem_cons, List.mem_singleton] at h
  rcases h with rfl | rfl <;> simp [Loose]

theorem Loose.quiet (h : Loose s) : Quiet s := by
  intro c hc
  rcases h c hc with hblank | rfl | rfl
  · exact quiet_of_blank (List.forall_mem_singleton.2 hblank) c List.mem_cons_self
  · decide
  · decide

/-- A text of which all parts are blank is loose. -/
theorem loose_of_splitOutside (hquote : quote = none)
    (h : ∀ p ∈ splitOutside conjunctions quote s, Blank p) : Loose s := by
  induction quote, s using splitOutside.induct conjunctions with
  | case1 quote => exact List.forall_mem_nil _
  | case2 quote c r sep hsep ih =>
    obtain ⟨-, hmem, htext⟩ := eq_append_of_separatorAt (by decide) hsep
    rw [splitOutside_separator hsep] at h
    rw [htext]
    exact (loose_of_mem_conjunctions hmem).append
      (ih rfl fun p hp => h p (List.mem_cons_of_mem _ hp))
  | case3 quote c r hsep ih =>
    subst hquote
    obtain ⟨p, ps, hcut⟩ := List.exists_cons_of_ne_nil
      (splitOutside_ne_nil conjunctions (afterChar none c) r)
    rw [splitOutside_char hsep, hcut, consHead, List.forall_mem_cons] at h
    obtain ⟨hc, hp⟩ := List.forall_mem_cons.1 h.1
    refine .cons hc (ih (afterChar_of_not_isQuote (isQuote_of_isBlank hc)) ?_)
    rw [hcut]
    exact List.forall_mem_cons.2 ⟨hp, h.2⟩

/-- If all parts but the first are blank, what follows the first part is loose, and no quote is open
there. -/
theorem exists_loose_behind (hcut : splitOutside conjunctions quote s = p :: ps)
    (h : ∀ q ∈ ps, Blank q) :
    ∃ v, s = p ++ v ∧ Loose v ∧ (v = [] ∨ afterText quote p = none) := by
  induction quote, s using splitOutside.induct conjunctions generalizing p with
  | case1 quote =>
    rw [splitOutside_nil] at hcut
    cases hcut
    exact ⟨[], rfl, List.forall_mem_nil _, .inl rfl⟩
  | case2 quote c r sep hsep ih =>
    obtain ⟨hquote, hmem, htext⟩ := eq_append_of_separatorAt (by decide) hsep
    rw [splitOutside_separator hsep] at hcut
    obtain ⟨rfl, rfl⟩ := List.cons.inj hcut
    refine ⟨c :: r, rfl, ?_, .inr hquote⟩
    rw [htext]
    exact (loose_of_mem_conjunctions hmem).append (loose_of_splitOutside rfl h)
  | case3 quote c r hsep ih =>
    obtain ⟨q, qs, hq⟩ := List.exists_cons_of_ne_nil
      (splitOutside_ne_nil conjunctions (afterChar quote c) r)
    rw [splitOutside_char hsep, hq, consHead] at hcut
    obtain ⟨rfl, rfl⟩ := List.cons.inj hcut
    obtain ⟨v, rfl, hv, hclosed⟩ := ih hq
    exact ⟨v, rfl, hv, hclosed⟩

/-! ## Conditions of one sub-condition -/

/-- A text of which one part is not blank is that part between loose texts; text behind it stands
outside quotes. -/
theorem exists_of_splitOutside (hquote : quote = none)
    (h : ((splitOutside conjunctions quote s).map trim).filter (· ≠ []) = [t]) :
    ∃ u p v, s = u ++ (p ++ v) ∧ Loose u ∧ trim p = t ∧ Loose v ∧
      (v = [] ∨ afterText none p = none) := by
  induction quote, s using splitOutside.induct conjunctions with
  | case1 quote =>
    rw [splitOutside_nil] at h
    cases h
  | case2 quote c r sep hsep ih =>
    obtain ⟨-, hmem, htext⟩ := eq_append_of_separatorAt (by decide) hsep
    rw [splitOutside_separator hsep] at h
    obtain ⟨u, p, v, hr, hu, hp⟩ := ih rfl h
    refine ⟨sep ++ u, p, v, ?_, (loose_of_mem_conjunctions hmem).append hu, hp⟩
    rw [htext, hr, List.append_assoc]
  | case3 quote c r hsep ih =>
    subst hquote
    obtain ⟨p, ps, hcut⟩ := List.exists_cons_of_ne_nil
      (splitOutside_ne_nil conjunctions (afterChar none c) r)
    have hparts : splitOutside conjunctions none (c :: r) = (c :: p) :: ps := by
      rw [splitOutside_char hsep, hcut]
      rfl
    rw [hparts, List.map_cons] at h
    by_cases hblank : Blank (c :: p)
    · -- A blank first part does not count, and neither does its first character.
      obtain ⟨hc, hp⟩ := List.forall_mem_cons.1 hblank
      have hnone := afterChar_of_not_isQuote (isQuote_of_isBlank hc)
      rw [List.filter_cons_of_neg (by simp [trim_eq_nil_iff.2 hblank])] at h
      obtain ⟨u, q, v, rfl, hu, hq⟩ := ih hnone (by
        rw [hcut, List.map_cons, List.filter_cons_of_neg (by simp [trim_eq_nil_iff.2 hp]), h])
      exact ⟨c :: u, q, v, rfl, .cons hc hu, hq⟩
    · have hfilled : trim (c :: p) ≠ [] := fun hnil => hblank (trim_eq_nil_iff.1 hnil)
      rw [List.filter_cons_of_pos (by simpa using hfilled)] at h
      obtain ⟨htrim, hrest⟩ := List.cons.inj h
      obtain ⟨v, hv⟩ := exists_loose_behind hparts fun q hq =>
        trim_eq_nil_iff.1 (by simpa using List.filter_eq_nil_iff.1 hrest _ (List.mem_map_of_mem hq))
      exact ⟨[], c :: p, v, hv.1, List.forall_mem_nil _, htrim, hv.2⟩

/-- **A condition of one sub-condition is that part between loose texts.** -/
theorem exists_of_subconditions (h : subconditions s = [t]) :
    ∃ u p v, s = u ++ (p ++ v) ∧ Loose u ∧ trim p = t ∧ Loose v ∧
      (v = [] ∨ afterText none p = none) :=
  exists_of_splitOutside rfl h

/-- A condition without sub-conditions is loose. -/
theorem loose_of_subconditions (h : subconditions s = []) : Loose s :=
  loose_of_splitOutside rfl fun _ hp => trim_eq_nil_iff.1
    (by simpa using List.filter_eq_nil_iff.1 h _ (List.mem_map_of_mem hp))

end

/-! ## Shapes -/

section

variable {c p q u v : List Char} {r : List (Comparison × List Char)}

theorem operandTokens_cases (s : List Char) :
    Blank s ∧ operandTokens s = [] ∨ ¬Blank s ∧ operandTokens s = [.operand (trim s)] := by
  rw [operandTokens]
  split
  · next hnil => exact .inl ⟨trim_eq_nil_iff.1 hnil, rfl⟩
  · next hne => exact .inr ⟨fun hblank => hne (trim_eq_nil_iff.2 hblank), rfl⟩

/-- The shape of a cut text: there is one operand, or there is one operator with an operand on
either side. -/
theorem wellFormed_tokensOf_iff :
    wellFormed (tokensOf (p, r)) = true ↔
      ¬Blank p ∧ (r = [] ∨ ∃ o q, r = [(o, q)] ∧ ¬Blank q) := by
  rcases r with _ | ⟨⟨o, q⟩, _ | ⟨⟨o', q'⟩, r⟩⟩
  · rcases operandTokens_cases p with ⟨hp, heq⟩ | ⟨hp, heq⟩ <;>
      simp [tokensOf, heq, hp, wellFormed]
  · rcases operandTokens_cases p with ⟨hp, heq⟩ | ⟨hp, heq⟩ <;>
      rcases operandTokens_cases q with ⟨hq, heq'⟩ | ⟨hq, heq'⟩ <;>
        simp [tokensOf, heq, heq', hp, hq, wellFormed]
  · rcases operandTokens_cases p with ⟨hp, heq⟩ | ⟨hp, heq⟩ <;>
      rcases operandTokens_cases q with ⟨hq, heq'⟩ | ⟨hq, heq'⟩ <;>
        simp [tokensOf, heq, heq', hp, wellFormed]

theorem not_blank_append_left (h : ¬Blank p) (q : List Char) : ¬Blank (p ++ q) :=
  fun hblank => h fun c hc => hblank c (List.mem_append_left q hc)

theorem not_blank_append_right (h : ¬Blank q) (p : List Char) : ¬Blank (p ++ q) :=
  fun hblank => h fun c hc => hblank c (List.mem_append_right p hc)

/-- Text in front of the first part keeps the shape. -/
theorem wellFormed_append (u : List Char) (h : wellFormed (tokensOf (p, r)) = true) :
    wellFormed (tokensOf (u ++ p, r)) = true := by
  obtain ⟨hp, hr⟩ := wellFormed_tokensOf_iff.1 h
  exact wellFormed_tokensOf_iff.2 ⟨not_blank_append_right hp u, hr⟩

/-- Text behind the last part keeps the shape. -/
theorem wellFormed_addBehind (b : List Char) (h : wellFormed (tokensOf (p, r)) = true) :
    wellFormed (tokensOf (addBehind b p r)) = true := by
  obtain ⟨hp, rfl | ⟨o, q, rfl, hq⟩⟩ := wellFormed_tokensOf_iff.1 h
  · exact wellFormed_tokensOf_iff.2 ⟨not_blank_append_left hp b, .inl rfl⟩
  · exact wellFormed_tokensOf_iff.2 ⟨hp, .inr ⟨o, q ++ b, rfl, not_blank_append_left hq b⟩⟩

/-- **The shape of a condition is that of its one sub-condition**, whatever stands around it;
without a sub-condition it is one operand. -/
theorem wellFormed_tokenize (hc : ¬Blank c) (hone : (subconditions c).length ≤ 1)
    (h : ∀ s ∈ subconditions c, wellFormed (tokenize s) = true) :
    wellFormed (tokenize c) = true := by
  rcases hsub : subconditions c with _ | ⟨s, _ | ⟨s', ss⟩⟩
  · have hcut := (loose_of_subconditions hsub).quiet.cutOperators_eq
    show wellFormed (tokensOf (cutOperators none c)) = true
    rw [hcut]
    exact wellFormed_tokensOf_iff.2 ⟨hc, .inl rfl⟩
  · obtain ⟨u, p, v, rfl, hu, rfl, hv, hclosed⟩ := exists_of_subconditions hsub
    have hp : wellFormed (tokensOf (cutOperators none p)) = true := by
      have hs := h (trim p) (by rw [hsub]; exact List.mem_cons_self)
      rwa [tokenize_trim] at hs
    have hhead : v.head? ≠ some '=' := fun hhead =>
      (hv.quiet '=' (List.mem_of_head? hhead)).2 (by decide)
    -- Behind the part either nothing follows or no quote is open.
    have hbehind : cutOperators (afterText none p) v = (v, []) := by
      rcases hclosed with rfl | hclosed
      · exact cutOperators_nil _
      · rw [hclosed, hv.quiet.cutOperators_eq]
    show wellFormed (tokensOf (cutOperators none (u ++ (p ++ v)))) = true
    rw [hu.quiet.cutOperators_append, cutOperators_append_behind hhead hbehind]
    exact wellFormed_append u (wellFormed_addBehind v hp)
  · rw [hsub] at hone
    simp at hone

/-! ## Conditions -/

variable {state : State}

theorem problem?_eq_none_iff {condition : String} :
    problem? condition = none ↔
      ∀ s ∈ subconditions condition.toList, wellFormed (tokenize s) = true := by
  rw [problem?, Option.map_eq_none_iff, List.find?_eq_none]
  simp

theorem warnings_evaluateSingle (h : wellFormed (tokenize c) = true) (state : State) :
    (evaluateSingle c state).warnings = [] := by
  unfold evaluateSingle
  split
  · rfl
  · rfl
  · next hone hthree =>
    unfold wellFormed at h
    split at h
    · next htokens => exact absurd htokens (hone _)
    · next htokens => exact absurd htokens (hthree _ _ _)
    · cases h

theorem warnings_allHold {ε α : Type} {test : α → Logged ε Bool} {l : List α}
    (h : ∀ x ∈ l, (test x).warnings = []) : (allHold test l).warnings = [] := by
  induction l with
  | nil => rfl
  | cons x xs ih =>
    obtain ⟨hx, hxs⟩ := List.forall_mem_cons.1 h
    rw [allHold]
    cases hresult : (test x).result with
    | error e => rw [Logged.warnings_bind_error hresult, hx]
    | ok b =>
      rw [Logged.warnings_bind_ok hresult, hx]
      cases b with
      | true => exact ih hxs
      | false => rfl

/-- **A condition that passes its check is evaluated without a warning**, in every state, of the
whole or of any sub-condition. -/
theorem evaluate_silent {condition : String} (h : problem? condition = none) (state : State) :
    (evaluate (some condition) state).warnings = [] := by
  rw [problem?_eq_none_iff] at h
  rw [evaluate]
  by_cases hmany : 1 < (subconditions condition.toList).length
  · rw [evaluateChars_of_many hmany]
    refine warnings_allHold fun s hs => ?_
    -- A sub-condition is cut no further, so its own evaluation reads what the check has read.
    have hself := subconditions_of_mem hs
    rw [evaluateChars_of_single (by rw [hself]; rfl)]
    exact warnings_evaluateSingle (h s hs) state
  · rw [evaluateChars, dif_neg hmany]
    split
    · rfl
    · next hblank =>
      have hfilled : ¬Blank condition.toList := fun hall => hblank (List.all_eq_true.2 hall)
      exact warnings_evaluateSingle (wellFormed_tokenize hfilled (Nat.not_lt.1 hmany) h) state

/-- A road to an inn and a mill, for which a toll is paid. -/
def road : State :=
  Mapping.ofList [("road", .str "inn, mill"), ("toll", .int 2)]

/-- Separators around the one part, with a comma in quotation marks, are no problem. -/
theorem evaluate_silent_road : problem? ", && road == 'inn, mill' && ," = none ∧
    (evaluate (some ", && road == 'inn, mill' && ,") road).warnings = [] := by
  have hcheck : problem? ", && road == 'inn, mill' && ," = none := by decide +kernel
  exact ⟨hcheck, evaluate_silent hcheck road⟩

end

/-! ## Instructions -/

/-- Whether a warning is of an assignment that no state lets run. -/
def isInvalidAssignment : Warning → Bool
  | .invalidAssignment _ => true
  | _ => false

variable {state after : State}

/-- An assignment that is read never gives cause to warn that it is none. -/
theorem isInvalidAssignment_of_expressionValue {s expression : List Char} {w : Warning}
    (h : expressionValue s expression state = .ok (.error w)) : isInvalidAssignment w = false := by
  rw [expressionValue] at h
  obtain ⟨parts, -, h⟩ := Except.bind_eq_ok_iff.1 h
  cases parts with
  | some parts =>
    obtain ⟨a, -, h⟩ := Except.bind_eq_ok_iff.1 h
    obtain ⟨b, -, h⟩ := Except.bind_eq_ok_iff.1 h
    split at h
    · obtain ⟨n, -, h⟩ := Except.bind_eq_ok_iff.1 h
      cases h
    · cases h
      rfl
  | none =>
    obtain ⟨v, -, h⟩ := Except.bind_eq_ok_iff.1 h
    cases v with
    | some v => cases h
    | none =>
      cases h
      rfl

/-- Whether a text is an assignment does not depend on the state in which it runs. -/
theorem warnings_executeStatement {s : List Char}
    (h : (executeStatement state s).result = .ok after) :
    (executeStatement state s).warnings.filter isInvalidAssignment =
      if (statement? s).isNone then [.invalidAssignment (String.ofList s)] else [] := by
  rw [executeStatement] at h ⊢
  cases hread : statement? s with
  | none => rfl
  | some parts =>
    obtain ⟨name, expression⟩ := parts
    rw [hread] at h
    dsimp only at h ⊢
    rw [Logged.result_bind, Except.bind_eq_ok_iff] at h
    obtain ⟨value, hvalue, -⟩ := h
    rw [Logged.warnings_bind_ok hvalue]
    cases value with
    | ok v => rfl
    | error w =>
      have hw := isInvalidAssignment_of_expressionValue hvalue
      show [w].filter isInvalidAssignment = []
      simp [hw]

/-- A row of assignments warns of those that are none, whatever the others do to the state. -/
theorem warnings_executeAll {ss : List (List Char)} (h : (executeAll state ss).result = .ok after) :
    (executeAll state ss).warnings.filter isInvalidAssignment =
      (ss.filter fun s => (statement? s).isNone).map
        fun s => .invalidAssignment (String.ofList s) := by
  induction ss generalizing state with
  | nil => rfl
  | cons s ss ih =>
    rw [executeAll] at h ⊢
    rw [Logged.result_bind, Except.bind_eq_ok_iff] at h
    obtain ⟨next, hnext, h⟩ := h
    rw [Logged.warnings_bind_ok hnext, List.filter_append, warnings_executeStatement hnext, ih h,
      List.filter_cons]
    split <;> rfl

/-- **The unusable assignments that an instruction warns of** are those that its check has found, in
the same order, in every state in which the instruction runs to its end. -/
theorem execute_problems {instruction : String}
    (h : (execute (some instruction) state).result = .ok after) :
    (execute (some instruction) state).warnings.filter isInvalidAssignment =
      statementProblems instruction :=
  warnings_executeAll h

/-- Paying a toll on the road, with two texts among the assignments that are none, one that has no
value and one that is no sum. -/
def errand : String :=
  "toll = toll - 1, gold, mood = joy, road == 'inn', , toll = road + 1"

theorem execute_problems_errand :
    ∃ after, (execute (some errand) road).result = .ok after ∧
      (execute (some errand) road).warnings.filter isInvalidAssignment =
        statementProblems errand ∧
      statementProblems errand =
        [.invalidAssignment "gold", .invalidAssignment "road == 'inn'"] := by
  obtain ⟨after, hafter⟩ :=
    Except.exists_of_isOk (x := (execute (some errand) road).result) (by decide +kernel)
  exact ⟨after, hafter, execute_problems hafter, by decide +kernel⟩

end Storyline.Expr
