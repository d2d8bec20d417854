import Storyline.Proofs.Expr.Sequence
import Storyline.Proofs.Expr.Tag

/-!
# Single assignments

An assignment is a name, an equals sign and an expression. Blanks around it do not count, and an
instruction in which no comma stands outside quotes is one assignment.

## Main definitions

* `assignment`: a name and an expression with an equals sign between them

## Main results

* `uncut_append_iff`: where a mark stands in two texts in a row
* `statement?_trim`: blanks around an assignment do not count
* `statements_of_whole`: an instruction without commas is one assignment
* `execute_assignment`: what an instruction does that is one assignment
-/

namespace Storyline

namespace Expr

open Text

variable {mark : Char} {quote : Option Char} {s t : List Char}

/-! ## Marks outside quotes -/

/-- Where the separator is a single mark, two texts in a row hold it exactly where one of them
does. -/
theorem uncut_append_iff :
    Uncut [[mark]] quote (s ++ t) ↔
      Uncut [[mark]] quote s ∧ Uncut [[mark]] (afterText quote s) t := by
  induction s generalizing quote with
  | nil => exact (and_iff_right trivial).symm
  | cons c r ih =>
    rw [List.cons_append, Uncut, Uncut, separatorAt_mark_congr c _ r, ih, and_assoc]
    rfl

/-- A text that does not hold a mark is not cut at it. -/
theorem uncut_of_notMem (h : mark ∉ s) : Uncut [[mark]] quote s := by
  induction s generalizing quote with
  | nil => trivial
  | cons c r ih =>
    rw [List.mem_cons, not_or] at h
    obtain ⟨hc, hr⟩ := h
    refine ⟨?_, ih hr⟩
    cases quote with
    | some q => exact separatorAt_of_quote _ q _
    | none =>
      rw [separatorAt_mark, if_neg]
      rintro ⟨-, rfl⟩
      exact hc rfl

/-- Text without marks at the end lengthens the last part. -/
theorem exists_splitOutside_append (h : mark ∉ t) (quote : Option Char) (s : List Char) :
    ∃ ps p, splitOutside [[mark]] quote s = ps ++ [p] ∧
      splitOutside [[mark]] quote (s ++ t) = ps ++ [p ++ t] := by
  induction s generalizing quote with
  | nil => exact ⟨[], [], splitOutside_nil _ quote, (uncut_of_notMem h).splitOutside_eq⟩
  | cons c r ih =>
    have hsame : separatorAt [[mark]] quote (c :: (r ++ t)) = separatorAt [[mark]] quote (c :: r) :=
      separatorAt_mark_congr c (r ++ t) r
    rw [List.cons_append]
    cases hsep : separatorAt [[mark]] quote (c :: r) with
    | none =>
      obtain ⟨ps, p, hs, hst⟩ := ih (afterChar quote c)
      rw [splitOutside_char hsep, splitOutside_char (hsame.trans hsep), hs, hst]
      -- The first part is also the last one if there is no other.
      cases ps with
      | nil => exact ⟨[], c :: p, rfl, rfl⟩
      | cons q qs => exact ⟨(c :: q) :: qs, p, rfl, rfl⟩
    | some sep =>
      obtain ⟨ps, p, hs, hst⟩ := ih none
      rw [splitOutside_separator hsep, splitOutside_separator (hsame.trans hsep)]
      obtain ⟨-, -, rfl⟩ := eq_of_separatorAt_mark hsep
      exact ⟨[] :: ps, p, congrArg ([] :: ·) hs, congrArg ([] :: ·) hst⟩

/-- Blanks around a text are around its parts. -/
theorem map_trim_split_trim (hmark : isBlank mark = false) (s : List Char) :
    (split [[mark]] (trim s)).map trim = (split [[mark]] s).map trim := by
  obtain ⟨front, back, hfront, hback, hs⟩ := exists_eq_append_trim s
  have hnot {b : List Char} (hb : Blank b) : mark ∉ b := by
    intro hmem
    rw [hb mark hmem] at hmark
    cases hmark
  have hunmarked : Unmarked [[mark]] front := by
    intro c hc
    refine ⟨isQuote_of_isBlank (hfront c hc), ?_⟩
    intro sep hsep
    rw [List.mem_singleton.1 hsep]
    refine ⟨List.cons_ne_nil _ _, ?_⟩
    rintro ⟨⟩
    exact hnot hfront hc
  -- The blanks in front are added to the first part and the blanks behind to the last.
  obtain ⟨ps, p, htrim, hback'⟩ := exists_splitOutside_append (hnot hback) none (trim s)
  obtain ⟨q, qs, hcut⟩ := List.exists_cons_of_ne_nil
    (splitOutside_ne_nil [[mark]] none (trim s ++ back))
  have hall : split [[mark]] s = (front ++ q) :: qs := by
    conv_lhs => rw [hs]
    exact splitOutside_append hunmarked hcut
  calc (split [[mark]] (trim s)).map trim
      = (ps ++ [p ++ back]).map trim := by
        rw [split, htrim, List.map_append, List.map_append, List.map_singleton,
          List.map_singleton, trim_append_blank p hback]
    _ = (q :: qs).map trim := by rw [← hback', hcut]
    _ = (split [[mark]] s).map trim := by
        rw [hall, List.map_cons, List.map_cons, trim_append hfront]

/-! ## Blanks around an assignment -/

/-- An assignment is read from the two sides of its equals sign without their blank ends. -/
theorem statement?_eq (s : List Char) :
    statement? s =
      match (split ["=".toList] s).map trim with
      | [name, expression] =>
        if name ≠ [] && name.all isWord && expression ≠ [] then some (name, expression) else none
      | _ => none := by
  rw [statement?]
  rcases split ["=".toList] s with _ | ⟨left, _ | ⟨right, _ | ⟨third, rest⟩⟩⟩
  · rfl
  · rfl
  · rfl
  · rfl

/-- **Blanks around an assignment do not count.** -/
theorem statement?_trim (s : List Char) : statement? (trim s) = statement? s := by
  have hsides : (split ["=".toList] (trim s)).map trim = (split ["=".toList] s).map trim :=
    map_trim_split_trim (by decide) s
  rw [statement?_eq, statement?_eq, hsides]

/-! ## One assignment -/

/-- An instruction without commas outside quotes is one assignment. -/
theorem statements_of_whole (h : split [",".toList] s = [s]) (hs : trim s ≠ []) :
    statements s = [trim s] := by
  rw [statements, h]
  simp [hs]

/-- What is an assignment is not blank. -/
theorem trim_ne_nil_of_statement? {name expression : List Char}
    (h : statement? s = some (name, expression)) : trim s ≠ [] := by
  intro hnil
  have hblank : statement? [] = none := by cbv
  rw [← statement?_trim, hnil, hblank] at h
  cases h

/-- An assignment as it is written. -/
def assignment (name expression : List Char) : List Char :=
  name ++ " = ".toList ++ expression

section

variable {name expression : List Char}

/-- An assignment is read from its name and its expression. -/
theorem statement?_assignment (hne : name ≠ []) (hword : ∀ c ∈ name, isWord c = true)
    (hexpression : Filled expression) (huncut : Uncut ["=".toList] none expression) :
    statement? (assignment name expression) = some (name, expression) := by
  have hfilled : Filled name := filled_of_forall hne fun c hc => isBlank_of_isWord (hword c hc)
  -- The equals sign is the only one, since there is none on either side of it.
  have hplain : ∀ c ∈ name ++ [' '], isQuote c = false ∧ c ≠ '=' := by
    intro c hc
    rcases List.mem_append.1 hc with hc | hc
    · simpa using of_isWord (p := fun c => !isQuote c && c != '=') (by decide) (hword c hc)
    · rw [List.mem_singleton.1 hc]
      exact ⟨by decide, by decide⟩
  have hleft : splitOutside ["=".toList] none (name ++ [' ']) = [name ++ [' ']] :=
    (uncut_of_notMem fun hmem => (hplain '=' hmem).2 rfl).splitOutside_eq
  have hright : splitOutside ["=".toList] none ([' '] ++ expression) = [[' '] ++ expression] := by
    have hspace : Uncut ["=".toList] none [' '] := uncut_of_notMem (by decide)
    exact (uncut_append_iff.2 ⟨hspace, huncut⟩).splitOutside_eq
  have hsplit : split ["=".toList] (assignment name expression) =
      [name ++ [' '], [' '] ++ expression] := by
    have hclosed := afterText_of_forall fun c hc => (hplain c hc).1
    have htext : assignment name expression = name ++ [' '] ++ '=' :: ([' '] ++ expression) := by
      simp [assignment]
    rw [htext]
    exact (splitOutside_append_mark (by decide) hclosed _).trans (congrArg₂ _ hleft hright)
  have htrim : trim ([' '] ++ expression) = expression := by
    rw [trim_append blank_space, hexpression.2]
  rw [statement?_eq, hsplit, List.map_cons, List.map_singleton, trim_append_blank name blank_space,
    hfilled.2, htrim]
  dsimp only
  rw [if_pos]
  simpa [hne, hexpression.1] using hword

/-- **An instruction that is one assignment** gives the value of its expression to its name. -/
theorem execute_assignment (hne : name ≠ []) (hword : ∀ c ∈ name, isWord c = true)
    (hexpression : Filled expression) (hcommas : Uncut [",".toList] none expression)
    (hequals : Uncut ["=".toList] none expression) {state : State} {v : Scalar}
    (hvalue : ∀ s, expressionValue s expression state = .ok (.ok v)) :
    execute (some (String.ofList (assignment name expression))) state =
      pure (state.insert (String.ofList name) v) := by
  have hfilled : Filled (assignment name expression) :=
    (filled_of_forall hne fun c hc => isBlank_of_isWord (hword c hc)).between hexpression _
  -- What stands in front of the expression leaves no quotation open there.
  have hfront : ∀ c ∈ name ++ " = ".toList, isQuote c = false ∧ c ≠ ',' := by
    intro c hc
    rcases List.mem_append.1 hc with hc | hc
    · simpa using of_isWord (p := fun c => !isQuote c && c != ',') (by decide) (hword c hc)
    · simpa using List.all_eq_true.1 (show " = ".toList.all (fun c => !isQuote c && c != ',') = true
        by decide) c hc
  have huncut : Uncut [",".toList] none (assignment name expression) := by
    refine uncut_append_iff.2 ⟨uncut_of_notMem fun hmem => (hfront ',' hmem).2 rfl, ?_⟩
    rw [afterText_of_forall fun c hc => (hfront c hc).1]
    exact hcommas
  have hstatements : statements (assignment name expression) = [assignment name expression] := by
    rw [statements_of_whole huncut.splitOutside_eq (hfilled.2.symm ▸ hfilled.1), hfilled.2]
  rw [execute, String.toList_ofList, hstatements, executeAll, executeStatement,
    statement?_assignment hne hword hexpression hequals]
  dsimp only
  rw [hvalue]
  rfl

end

end Expr

end Storyline
