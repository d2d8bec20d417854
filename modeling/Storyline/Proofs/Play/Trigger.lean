import Storyline.Play
import Storyline.Proofs.Expr.Operand

/-!
# Triggers and the values of their variables

The condition of a trigger begins with an operator, and the value of its variable is written in
front. So the value is read back as an operand: a truth value and an integer as themselves, but a
string as the name of a variable or as a literal, since no quotes are put around it. Where the
operator cannot tell what is read from the value, the trigger says of the variable what its
condition says with the name of the variable in front.

## Main definitions

* `ReadsBack`: a value that the operator of a trigger cannot tell from what is read

## Main results

* `readsBack_of_order`: an operator of order sees the number of a string, written without quotes
* `triggerFires_named`: the trigger of such a value asks for the value of its variable
-/

namespace Storyline

open Text Storyline.Expr

variable {o : Comparison} {state : State} {v : Scalar}

/-- Whether an operator cannot tell a value from what its text stands for as an operand. -/
def ReadsBack (o : Comparison) (state : State) : Scalar → Prop
  | .bool _ | .int _ => True
  | .float _ => False
  | .str s => Bare s.toList ∧
    ∃ a, resolve (trim s.toList) state = .ok a ∧ Alike o a (some (.str s))

theorem ReadsBack.exists_resolve {text : String} (h : ReadsBack o state v)
    (htext : Operand.display (some v) = .ok text) :
    Bare text.toList ∧ ∃ a, resolve (trim text.toList) state = .ok a ∧ Alike o a (some v) := by
  cases v with
  | bool b =>
    cases htext
    have htrim : trim (if b then "true" else "false").toList =
        (if b then "true" else "false").toList := by cases b <;> rfl
    rw [htrim, resolve_bool]
    exact ⟨bare_bool b, _, rfl, .refl o _⟩
  | int n =>
    rw [Operand.display, Number.writeInt] at htext
    split at htext
    · cases htext
    · next hlimit =>
      cases htext
      rw [String.toList_ofList, (filled_intDigits n).2, resolve_intDigits (Nat.not_lt.1 hlimit)]
      exact ⟨bare_intDigits n, _, rfl, .refl o _⟩
  | float x => exact h.elim
  | str s =>
    cases htext
    exact h

/-- An operator of order sees the number that a string spells also without quotes around it, unless
the string is the name of a variable or of a truth value. -/
theorem readsBack_of_order {s : String} {n : Option Number} (horder : o.isOrder = true)
    (hbare : Bare s.toList) (htrue : trim s.toList ≠ "true".toList)
    (hfalse : trim s.toList ≠ "false".toList) (habsent : state.get? (trimmed s) = none)
    (hread : Number.readLiteral s.toList = .ok n) : ReadsBack o state (.str s) := by
  have hblank : ¬allBlank s = true := fun hall => hbare.not_blank (List.all_eq_true.1 hall)
  have htrim : Number.readLiteral (trim s.toList) = .ok n := by
    rw [← hread, Number.readLiteral, Number.readLiteral, trim_trim]
  have hplain : ∀ c ∈ trim s.toList, c ∉ marks := fun c hc => hbare.plain c (mem_of_mem_trim hc)
  have hresolve : resolve (trim s.toList) state = .ok (n.map Scalar.ofNumber) := by
    cases n with
    | some m =>
      rw [resolve, if_neg htrue, if_neg hfalse, htrim]
      rfl
    | none =>
      rw [resolve_plain hplain htrue hfalse htrim]
      exact congrArg Except.ok habsent
  refine ⟨hbare, n.map Scalar.ofNumber, hresolve, ?_⟩
  rw [Alike, if_pos horder]
  show _ = Operand.textToFloat s
  rw [Operand.textToFloat, if_neg hblank, hread]
  rcases n with _ | _ | _ <;> rfl

/-- **A trigger asks for the value of its variable**: with the name of the variable in front of its
condition the verdict is the same, for truth values, integers and strings that read back. -/
theorem triggerFires_named {name : String} {t : Trigger} {fires : Bool}
    (hname : IsVariable name.toList) (hvalue : state.get? name = some v)
    (hoperator : o.text.toList <+: t.condition.toList) (hread : ReadsBack o state v)
    (hfires : (triggerFires name t state).result = .ok fires) :
    (evaluate (some (name ++ " " ++ t.condition)) state).result = .ok fires := by
  obtain ⟨o', rest, hat, horder⟩ := exists_operatorAt? hoperator
  rw [triggerFires, hvalue] at hfires
  dsimp only at hfires
  rw [Logged.result_bind, Logged.result_lift] at hfires
  obtain ⟨text, htext, hfires⟩ := Except.bind_eq_ok_iff.1 hfires
  obtain ⟨hbare, a, ha, halike⟩ := hread.exists_resolve htext
  have hsplice (s : String) : (s ++ " " ++ t.condition).toList =
      (s.toList ++ [' ']) ++ t.condition.toList := by
    rw [String.toList_append, String.toList_append]
    rfl
  have hspace : Blank [' '] := by simp [Blank, isBlank, isAsciiBlank]
  have htrim (s : List Char) : trim (s ++ [' ']) = trim s := trim_append_blank s hspace
  -- Both texts are an operand and a blank in front of one condition.
  rw [evaluate, hsplice] at hfires ⊢
  rw [← hfires]
  refine result_evaluateChars_bare (hname.bare.append_blank hspace) (hbare.append_blank hspace) hat
    (x := some v) (y := a) ?_ ?_ ?_
  · rw [htrim, hname.trim_eq, hname.resolve_eq, String.ofList_toList, hvalue]
  · rw [htrim, ha]
  · -- The operator that is read may be longer, but it compares in the same way.
    have hread : Alike o' a (some v) := by
      unfold Alike at halike ⊢
      rwa [horder]
    exact fun z => (hread.compare_eq z).symm

/-- What is known of a traveller after a fall. -/
def fallen : State :=
  Mapping.ofList [("health", .int (-2)), ("rank", .str "7")]

theorem fallen_triggers :
    (evaluate (some ("health" ++ " " ++ "<= 0 && rank")) fallen).result = .ok true ∧
      (evaluate (some ("rank" ++ " " ++ "> 10")) fallen).result = .ok false := by
  have hhealth : IsVariable "health".toList :=
    ⟨by decide, List.all_eq_true.1 (by decide), by decide, by decide, by rfl⟩
  have hrank : IsVariable "rank".toList :=
    ⟨by decide, List.all_eq_true.1 (by decide), by decide, by decide, by rfl⟩
  constructor
  · exact triggerFires_named (o := .le) (v := .int (-2)) (t := ⟨"<= 0 && rank", "end"⟩) hhealth
      (by rfl) (by decide) trivial (by decide +kernel)
  · refine triggerFires_named (o := .gt) (v := .str "7") (t := ⟨"> 10", "end"⟩) hrank
      (by rfl) (by decide) ?_ (by decide +kernel)
    have hbare : Bare "7".toList := bare_of_isWord (by decide) (List.all_eq_true.1 (by decide))
    exact readsBack_of_order (n := some (.int 7)) rfl hbare (by decide) (by decide) rfl rfl

/-- A string is written without quotes, so it is read as the name of a variable. -/
theorem triggerFires_unquoted :
    (triggerFires "name" ⟨"== 'Hero'", "ending"⟩ (Mapping.ofList [("name", .str "Hero")])).result =
        .ok false ∧
      (evaluate (some "name == 'Hero'") (Mapping.ofList [("name", .str "Hero")])).result =
        .ok true :=
  ⟨by decide +kernel, by decide +kernel⟩

end Storyline
