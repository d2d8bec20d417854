import Storyline.Proofs.Expr.Arithmetic
import Storyline.Proofs.Expr.Reversal

/-!
# Strings are kept as they are written

What stands in a quotation reaches the variables unchanged: none of the places where an instruction
is cut, at commas, at its equals sign and at a sign between two operands, looks into the quotation.
A condition on the variable does not look into it either, so it finds the text that was assigned.

## Main results

* `firstSign?_quotation`, `expressionValue_quotation`: a quotation is one operand of an assignment
* `evaluate_comparison_quotation`: a variable compared with a quotation
* `execute_quotation`: a text is assigned and found again
-/

namespace Storyline

namespace Expr

open Text

variable {q : Char} {v name : List Char}

/-! ## Assigning a quotation -/

/-- Up to the quote that closes it a quotation has no sign. -/
theorem firstSign?_quoted_append (hv : q ∉ v) (before t : List Char) :
    firstSign? (some q) before (v ++ q :: t) =
      firstSign? none (q :: (v.reverse ++ before)) t := by
  induction v generalizing before with
  | nil =>
    rw [List.nil_append, firstSign?_quoted, afterChar_self]
    rfl
  | cons c r ih =>
    rw [List.mem_cons, not_or] at hv
    obtain ⟨hc, hr⟩ := hv
    rw [List.cons_append, firstSign?_quoted, afterChar_of_ne (Ne.symm hc), ih hr,
      List.reverse_cons, List.append_assoc]
    rfl

/-- **No sign counts inside a quotation.** -/
theorem firstSign?_quotation (hq : isQuote q = true) (hv : q ∉ v) (before : List Char) :
    firstSign? none before (quotation q v) = none := by
  have hsign : sign? q = none := of_isQuote (p := fun c => sign? c = none) hq rfl rfl
  rw [quotation, firstSign?_char hsign, afterChar_of_isQuote hq, firstSign?_quoted_append hv]
  rfl

/-- A quotation gives the text in it to a variable. -/
theorem expressionValue_quotation (hq : isQuote q = true) (hv : q ∉ v) (s : List Char)
    (state : State) :
    expressionValue s (quotation q v) state = .ok (.ok (.str (String.ofList v))) := by
  have harithmetic : arithmetic? (quotation q v) = .ok none := by
    rw [arithmetic?, readLiteral_quotation hq, firstSign?_quotation hq hv]
    rfl
  rw [expressionValue, harithmetic]
  dsimp only [bind, Except.bind]
  rw [resolve_quotation hq]
  rfl

/-! ## Finding it again -/

theorem IsVariable.isOperand (h : IsVariable name) : IsOperand name :=
  .plain ⟨h.ne_nil, h.trim_eq⟩ h.bare.plain

/-- A variable that holds a string is compared with the text in a quotation. -/
theorem evaluate_comparison_quotation {state : State} {s : String} (hname : IsVariable name)
    (hq : isQuote q = true) (hv : q ∉ v)
    (hstate : state.get? (String.ofList name) = some (.str s)) (o : Comparison) :
    evaluate (some (String.ofList (comparison name o (quotation q v)))) state =
      Logged.lift (compare o (some (.str s)) (some (.str (String.ofList v)))) := by
  rw [(compares_comparison name o _).evaluate_eq hname.isOperand (.quoted hq hv),
    hname.resolve_eq, hstate, resolve_quotation hq]
  rfl

/-- **A text between quotes is assigned as it is written, and found again**: the variable holds it
and no other variable is changed, it equals the quotation, and nothing is warned of. -/
theorem execute_quotation (hname : IsVariable name) (hq : isQuote q = true) (hv : q ∉ v)
    (state : State) :
    let after := state.insert (String.ofList name) (.str (String.ofList v))
    execute (some (String.ofList (assignment name (quotation q v)))) state = pure after ∧
      evaluate (some (String.ofList (comparison name .eq (quotation q v)))) after = pure true ∧
      evaluate (some (String.ofList (comparison name .ne (quotation q v)))) after = pure false := by
  intro after
  -- One fact serves the cuts at commas and at the equals sign.
  have huncut {seps : List (List Char)} : Uncut seps none (quotation q v) := by
    rw [← List.append_nil (quotation q v)]
    exact (uncut_quotation hq hv).2 trivial
  have hholds : after.get? (String.ofList name) = some (.str (String.ofList v)) := by
    rw [Mapping.get?_insert, if_pos rfl]
  have hequal : Operand.looseEquals (some (.str (String.ofList v)))
      (some (.str (String.ofList v))) = .ok true :=
    congrArg Except.ok (beq_self_eq_true _)
  refine ⟨?_, ?_, ?_⟩
  · exact execute_assignment hname.ne_nil hname.word (filled_quotation hq v) huncut huncut
      fun s => expressionValue_quotation hq hv s state
  · rw [evaluate_comparison_quotation hname hq hv hholds, compare, hequal]
    rfl
  · rw [evaluate_comparison_quotation hname hq hv hholds, compare, hequal]
    rfl

/-- A motto with a comma, operators, a sign and the other quote in it. -/
def motto : List Char :=
  "\"hold, && a = a + 1 != b\" ".toList

/-- What the bearer of the motto has. -/
def bearer : State :=
  Mapping.ofList [("gold", .int 3)]

theorem motto_found :
    IsVariable "motto".toList ∧ isQuote '\'' = true ∧ '\'' ∉ motto ∧
      let after := bearer.insert (String.ofList "motto".toList) (.str (String.ofList motto))
      execute (some (String.ofList (assignment "motto".toList (quotation '\'' motto)))) bearer =
          pure after ∧
        evaluate (some (String.ofList (comparison "motto".toList .eq (quotation '\'' motto))))
          after = pure true ∧
        evaluate (some (String.ofList (comparison "motto".toList .ne (quotation '\'' motto))))
          after = pure false := by
  have hname : IsVariable "motto".toList :=
    ⟨by decide, List.all_eq_true.1 (by decide), by decide, by decide, by rfl⟩
  have hmotto : '\'' ∉ motto := by decide
  exact ⟨hname, rfl, hmotto, execute_quotation hname rfl hmotto bearer⟩

end Expr

end Storyline
