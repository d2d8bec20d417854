import Storyline.Proofs.Expr.Comparison

/-!
# Conjunctions

A condition between `&&` and commas is the conjunction of its sub-conditions. A condition that is
cut into two or more of them is evaluated part by part; one that is not cut is evaluated as it
stands, and then blanks at its ends do not count.

## Main results

* `result_evaluateSingle_trim`: blanks around a comparison do not count
* `result_allHold_iff`: when every element passes a test
* `evaluate_iff_subconditions`: a condition holds exactly when all of its sub-conditions hold
-/

namespace Storyline.Expr

open Text

variable {c : List Char}

theorem result_evaluateSingle_congr {s t : List Char} (h : tokenize s = tokenize t)
    (state : State) : (evaluateSingle s state).result = (evaluateSingle t state).result := by
  unfold evaluateSingle
  rw [h]
  split <;> rfl

/-- Blanks around a comparison do not count. -/
theorem result_evaluateSingle_trim (s : List Char) (state : State) :
    (evaluateSingle (trim s) state).result = (evaluateSingle s state).result :=
  result_evaluateSingle_congr (tokenize_trim s) state

/-- Every element passes a test exactly when the search for one that fails finds none. -/
theorem result_allHold_iff {ε α : Type} {test : α → Logged ε Bool} {l : List α} :
    (allHold test l).result = .ok true ↔ ∀ x ∈ l, (test x).result = .ok true := by
  induction l with
  | nil => exact iff_of_true rfl (List.forall_mem_nil _)
  | cons x xs ih =>
    rw [List.forall_mem_cons, ← ih, allHold]
    cases hx : (test x).result with
    | error e =>
      rw [Logged.result_bind_error hx]
      exact iff_of_false (by simp) (by simp)
    | ok b =>
      rw [Logged.result_bind_ok hx]
      cases b with
      | true => simp
      | false => simp

theorem allHold_map {ε α β : Type} (test : β → Logged ε Bool) (f : α → β) (l : List α) :
    allHold test (l.map f) = allHold (fun x => test (f x)) l := by
  induction l with
  | nil => rfl
  | cons x xs ih => rw [List.map_cons, allHold, allHold, ih]

theorem subconditions_of_blank (h : Blank c) : subconditions c = [] := by
  have hcut : split ["&&".toList, ",".toList] c = [c] :=
    (unmarked_of_blank h).uncut.splitOutside_eq
  rw [subconditions, hcut]
  simp [trim_eq_nil_iff.2 h]

theorem not_all_isBlank (h : 0 < (subconditions c).length) : ¬c.all isBlank = true := by
  intro hall
  rw [subconditions_of_blank (List.all_eq_true.1 hall)] at h
  exact Nat.lt_irrefl 0 h

/-- A condition of one sub-condition is evaluated as it stands, with what is around that part. -/
theorem evaluateChars_of_single (h : (subconditions c).length = 1) (state : State) :
    evaluateChars c state = evaluateSingle c state := by
  rw [evaluateChars, if_neg (not_all_isBlank (by omega)), dif_neg (by omega)]

theorem evaluateChars_of_uncut (h : Uncut conjunctions none c) (hc : trim c ≠ [])
    (state : State) : evaluateChars c state = evaluateSingle c state := by
  refine evaluateChars_of_single ?_ state
  rw [subconditions_of_uncut h hc]
  rfl

/-- A part that is not cut is evaluated as it stands, blanks at its ends or not. -/
theorem result_evaluateChars_trim (h : Uncut conjunctions none c) (hc : trim c ≠ [])
    (state : State) : (evaluateChars (trim c) state).result = (evaluateSingle c state).result := by
  rw [evaluateChars_of_uncut h.trim (by rwa [trim_trim]), result_evaluateSingle_trim]

/-- A condition of two sub-conditions or more is evaluated part by part. -/
theorem evaluateChars_of_many (h : 1 < (subconditions c).length) (state : State) :
    evaluateChars c state = allHold (evaluateChars · state) (subconditions c) := by
  conv_rhs => rw [← List.attach_map_subtype_val (subconditions c), allHold_map]
  rw [evaluateChars, if_neg (not_all_isBlank (by omega)), dif_pos h]

/-- **A condition that is not cut, or that is cut into two or more sub-conditions, holds exactly
when all of its sub-conditions hold**, wherever the separators stand. -/
theorem evaluate_iff_subconditions {condition : String}
    (h : Uncut conjunctions none condition.toList ∨
      1 < (subconditions condition.toList).length) (state : State) :
    (evaluate (some condition) state).result = .ok true ↔
      ∀ s ∈ subconditions condition.toList,
        (evaluate (some (String.ofList s)) state).result = .ok true := by
  have hpart (s : List Char) :
      evaluate (some (String.ofList s)) state = evaluateChars s state := by
    rw [evaluate, String.toList_ofList]
  simp only [hpart]
  rcases h with huncut | hmany
  -- What is not cut has no sub-condition or itself without its blank ends.
  · by_cases hblank : trim condition.toList = []
    · rw [subconditions_of_blank (trim_eq_nil_iff.1 hblank), evaluate, evaluateChars,
        if_pos (List.all_eq_true.2 (trim_eq_nil_iff.1 hblank))]
      exact iff_of_true rfl (List.forall_mem_nil _)
    · rw [subconditions_of_uncut huncut hblank, List.forall_mem_singleton, evaluate,
        evaluateChars_of_uncut huncut hblank, result_evaluateChars_trim huncut hblank]
  · rw [evaluate, evaluateChars_of_many hmany, result_allHold_iff]

/-- What a traveller has to show at the inn. -/
def traveller : State :=
  Mapping.ofList [("key", .bool true), ("road", .str "inn, mill")]

theorem traveller_enters : 1 < (subconditions "key &&, road == 'inn, mill'".toList).length ∧
    (evaluate (some "key &&, road == 'inn, mill'") traveller).result = .ok true := by
  have hparts : subconditions "key &&, road == 'inn, mill'".toList =
      ["key".toList, "road == 'inn, mill'".toList] := by cbv
  have hmany : 1 < (subconditions "key &&, road == 'inn, mill'".toList).length := by
    rw [hparts]
    decide
  refine ⟨hmany, (evaluate_iff_subconditions (.inr hmany) traveller).2 ?_⟩
  rw [hparts, List.forall_mem_cons, List.forall_mem_singleton]
  exact ⟨by decide +kernel, by decide +kernel⟩

/-- A separator beside only one sub-condition is not taken away: the comma is read as part of the
name of a variable. -/
theorem evaluate_danglingComma :
    subconditions "gold,".toList = ["gold".toList] ∧
      (evaluate (some "gold") (Mapping.ofList [("gold", .int 5)])).result = .ok true ∧
      (evaluate (some "gold,") (Mapping.ofList [("gold", .int 5)])).result = .ok false :=
  ⟨by cbv, by decide +kernel, by decide +kernel⟩

end Storyline.Expr
