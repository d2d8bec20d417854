import Storyline.Expr.Assignment
import Storyline.Proofs.Expr.Split
import Storyline.Proofs.Outcome

/-!
# Instructions in a row

The assignments of an instruction run from left to right on the same variables. So two instructions
with a comma between them are the first and then the second, as long as the comma stands outside
quotes: the first instruction must leave no quotation open.

## Main results

* `splitOutside_append_mark`: a text is cut at a mark between two texts
* `statements_append`: the assignments of two instructions
* `executeAll_append`: a row of assignments runs in two stretches
* `execute_append`: two instructions with a comma between them
-/

namespace Storyline

namespace Expr

open Text

/-! ## A comma between two instructions -/

section

variable {mark : Char} {s t : List Char} {quote : Option Char}

theorem separatorAt_of_quote (seps : List (List Char)) (q : Char) (s : List Char) :
    separatorAt seps (some q) s = none := by
  simp [separatorAt]

/-- Where the separator is a single mark, the first character decides whether one is there. -/
theorem separatorAt_mark (c : Char) (r : List Char) :
    separatorAt [[mark]] none (c :: r) =
      if isQuote c = false ∧ c = mark then some [mark] else none := by
  cases hquote : isQuote c with
  | true => simp [separatorAt, hquote]
  | false =>
    by_cases hmark : c = mark
    · subst hmark
      simp [separatorAt, hquote]
    · simp [separatorAt, hmark, Ne.symm hmark]

theorem eq_of_separatorAt_mark {c : Char} {r sep : List Char}
    (h : separatorAt [[mark]] quote (c :: r) = some sep) :
    quote = none ∧ isQuote c = false ∧ sep = [mark] := by
  cases quote with
  | some q =>
    rw [separatorAt_of_quote] at h
    cases h
  | none =>
    rw [separatorAt_mark] at h
    split at h
    · next hc => exact ⟨rfl, hc.1, (Option.some.inj h).symm⟩
    · cases h

theorem separatorAt_mark_congr (c : Char) (r r' : List Char) :
    separatorAt [[mark]] quote (c :: r) = separatorAt [[mark]] quote (c :: r') := by
  cases quote with
  | none => rw [separatorAt_mark, separatorAt_mark]
  | some q => rw [separatorAt_of_quote, separatorAt_of_quote]

theorem consHead_append {ps : List (List Char)} (h : ps ≠ []) (c : Char) (qs : List (List Char)) :
    consHead c (ps ++ qs) = consHead c ps ++ qs := by
  obtain ⟨p, ps, rfl⟩ := List.exists_cons_of_ne_nil h
  rfl

/-- After a text that leaves no quotation open, a mark cuts. -/
theorem splitOutside_append_mark (hmark : isQuote mark = false) (h : afterText quote s = none)
    (t : List Char) :
    splitOutside [[mark]] quote (s ++ mark :: t) =
      splitOutside [[mark]] quote s ++ splitOutside [[mark]] none t := by
  -- The quote that is open before the text changes with each character.
  induction s generalizing quote with
  | nil =>
    have hquote : quote = none := h
    have hsep : separatorAt [[mark]] quote (mark :: t) = some [mark] := by
      rw [hquote, separatorAt_mark, if_pos ⟨hmark, rfl⟩]
    rw [List.nil_append, splitOutside_separator hsep, splitOutside_nil]
    rfl
  | cons c r ih =>
    have hnext : splitOutside [[mark]] (afterChar quote c) (r ++ mark :: t) =
        splitOutside [[mark]] (afterChar quote c) r ++ splitOutside [[mark]] none t := ih h
    rw [List.cons_append]
    cases hsep : separatorAt [[mark]] quote (c :: r) with
    | none =>
      have hlonger : separatorAt [[mark]] quote (c :: (r ++ mark :: t)) = none := by
        rw [separatorAt_mark_congr c _ r, hsep]
      rw [splitOutside_char hlonger, splitOutside_char hsep, hnext]
      exact consHead_append (splitOutside_ne_nil _ _ _) c _
    | some sep =>
      have hlonger : separatorAt [[mark]] quote (c :: (r ++ mark :: t)) = some sep := by
        rw [separatorAt_mark_congr c _ r, hsep]
      -- A separator stands only where no quote is open, and it opens none.
      obtain ⟨rfl, hc, rfl⟩ := eq_of_separatorAt_mark hsep
      rw [afterChar_of_not_isQuote hc] at hnext
      rw [splitOutside_separator hlonger, splitOutside_separator hsep]
      exact congrArg ([] :: ·) hnext

/-- The assignments of two instructions with a comma between them are those of the first and those
of the second. -/
theorem statements_append (h : afterText none s = none) (t : List Char) :
    statements (s ++ ',' :: t) = statements s ++ statements t := by
  have hcut : split [",".toList] (s ++ ',' :: t) = split [",".toList] s ++ split [",".toList] t :=
    splitOutside_append_mark (by decide) h t
  rw [statements, hcut, List.map_append, List.filter_append]
  rfl

end

/-! ## Running in two stretches -/

/-- A row of assignments runs in two stretches, the second on the variables that the first
leaves. -/
theorem executeAll_append (state : State) (first second : List (List Char)) :
    executeAll state (first ++ second) =
      executeAll state first >>= fun between => executeAll between second := by
  induction first generalizing state with
  | nil => rfl
  | cons s rest ih =>
    rw [List.cons_append, executeAll, executeAll, Logged.bind_assoc]
    exact congrArg _ (funext fun next => ih next)

/-- One instruction, a comma and another one run as the first and then the second. -/
theorem execute_comma {first : String} (h : afterText none first.toList = none) (second : String)
    (state : State) :
    execute (some (first ++ "," ++ second)) state =
      execute (some first) state >>= fun between => execute (some second) between := by
  have htext : (first ++ "," ++ second).toList = first.toList ++ ',' :: second.toList := by
    rw [String.toList_append, String.toList_append, List.append_assoc]
    rfl
  rw [execute, htext, statements_append h, executeAll_append]
  rfl

/-- **Two instructions with a comma between them** do what the first does and then what the second
does on the variables that the first leaves: the same variables, the warnings of the first before
those of the second, and a fault exactly where one of the two has one. -/
theorem execute_append {first : String} (h : afterText none first.toList = none) (second : String)
    (state : State) :
    (∀ between, (execute (some first) state).result = .ok between →
      (execute (some (first ++ "," ++ second)) state).result =
          (execute (some second) between).result ∧
        (execute (some (first ++ "," ++ second)) state).warnings =
          (execute (some first) state).warnings ++ (execute (some second) between).warnings) ∧
      (∀ e, (execute (some first) state).result = .error e →
        (execute (some (first ++ "," ++ second)) state).warnings =
          (execute (some first) state).warnings) ∧
      ∀ e, (execute (some (first ++ "," ++ second)) state).result = .error e ↔
        (execute (some first) state).result = .error e ∨
          ∃ between, (execute (some first) state).result = .ok between ∧
            (execute (some second) between).result = .error e := by
  rw [execute_comma h]
  refine ⟨fun between hfirst => ?_, fun e hfirst => ?_, fun e => ⟨fun hboth => ?_, ?_⟩⟩
  · exact ⟨Logged.result_bind_ok hfirst _, Logged.warnings_bind_ok hfirst _⟩
  · exact Logged.warnings_bind_error hfirst _
  · exact Logged.result_bind_eq_error hboth
  · rintro (hfirst | ⟨between, hfirst, hsecond⟩)
    · exact Logged.result_bind_error hfirst _
    · rw [Logged.result_bind_ok hfirst, hsecond]

/-- A pouch from which something is paid while a note is taken. -/
def pouch : State :=
  Mapping.ofList [("gold", .int 5), ("hp", .int 1)]

/-- A payment with a comma in quotation marks, and with a blank and two unusable assignments. -/
def payment : String :=
  "note = 'rope, lamp', , seen == 1, gold = gold - 2, mood = joy"

/-- After the payment the pouch goes on with what is left in it, and both stretches warn. -/
theorem execute_append_payment :
    ∃ between, (execute (some payment) pouch).result = .ok between ∧
      (execute (some (payment ++ "," ++ "hp = hp + gold, luck = note - 1")) pouch).result =
        (execute (some "hp = hp + gold, luck = note - 1") between).result ∧
      (execute (some payment) pouch).warnings ++
          (execute (some "hp = hp + gold, luck = note - 1") between).warnings =
        [.invalidAssignment "seen == 1", .undefinedValue "mood = joy",
          .invalidArithmetic "luck = note - 1"] := by
  obtain ⟨between, hfirst⟩ :=
    Except.exists_of_isOk (x := (execute (some payment) pouch).result) (by decide +kernel)
  have hclosed : afterText none payment.toList = none := by decide
  obtain ⟨hresult, hwarnings⟩ :=
    (execute_append hclosed "hp = hp + gold, luck = note - 1" pouch).1 between hfirst
  refine ⟨between, hfirst, hresult, ?_⟩
  rw [← hwarnings]
  decide +kernel

end Expr

end Storyline
