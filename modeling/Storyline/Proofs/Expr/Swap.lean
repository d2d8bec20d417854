import Storyline.Proofs.Expr.Statement

/-!
# Independent assignments

An expression takes the values of its operands and of nothing else, and an assignment changes its
own variable only. So of two assignments to different variables, neither of which takes the variable
of the other, it does not matter which one runs first.

## Main definitions

* `operands`: the texts whose values an expression takes
* `assigned`: the variables after an assignment, told from the outcome of its expression
* `IsAssignment`: an instruction that is one assignment with all of its quotes closed

## Main results

* `resolve_insert`, `expressionValue_insert`: what an operand and an expression do not depend on
* `result_executeStatement`: what an assignment changes
* `execute_swap`: independent assignments run in either order
-/

namespace Storyline

namespace Expr

open Text

/-- The texts whose values an expression takes: both sides of a sum or difference, else the whole
expression. -/
def operands (expression : List Char) : List (List Char) :=
  match arithmetic? expression with
  | .ok (some (left, _, right)) => [left, right]
  | _ => [expression]

variable {state : State} {name : List Char} {v : Scalar}

/-! ## What an expression depends on -/

/-- An operand does not depend on a variable of another name. -/
theorem resolve_insert {token : List Char} (h : token ≠ name) :
    resolve token (state.insert (String.ofList name) v) = resolve token state := by
  have hkey : String.ofList token ≠ String.ofList name := fun he => h (String.ofList_injective he)
  unfold resolve
  rw [Mapping.get?_insert, if_neg hkey]

/-- **An expression does not depend on a variable that is none of its operands.** -/
theorem expressionValue_insert {expression : List Char} (h : name ∉ operands expression)
    (s : List Char) :
    expressionValue s expression (state.insert (String.ofList name) v) =
      expressionValue s expression state := by
  unfold expressionValue
  cases harithmetic : arithmetic? expression with
  | error e => rfl
  | ok found =>
    rw [operands, harithmetic] at h
    cases found with
    | none =>
      -- The whole expression is its only operand.
      have hwhole : expression ≠ name := fun he => h (he ▸ List.mem_singleton_self _)
      dsimp only [bind, Except.bind]
      rw [resolve_insert hwhole]
    | some parts =>
      obtain ⟨left, sign, right⟩ := parts
      simp only [List.mem_cons, List.not_mem_nil, or_false, not_or] at h
      dsimp only [bind, Except.bind]
      rw [resolve_insert (Ne.symm h.1), resolve_insert (Ne.symm h.2)]

/-! ## What an assignment changes -/

/-- The variables after an assignment, from the outcome of its expression; an expression without a
value changes nothing. -/
def assigned (name : List Char) (state : State) : Except Warning Scalar → State
  | .ok v => state.insert (String.ofList name) v
  | .error _ => state

/-- An assignment changes its own variable, to the value of its expression. -/
theorem result_executeStatement {s expression : List Char}
    (h : statement? s = some (name, expression)) (state : State) :
    (executeStatement state s).result =
      (expressionValue s expression state).map (assigned name state) := by
  rw [executeStatement, h]
  dsimp only
  rw [Logged.result_bind, Logged.result_lift]
  cases expressionValue s expression state with
  | error e => rfl
  | ok outcome => cases outcome <;> rfl

theorem expressionValue_assigned {expression : List Char} (h : name ∉ operands expression)
    (s : List Char) (outcome : Except Warning Scalar) :
    expressionValue s expression (assigned name state outcome) =
      expressionValue s expression state := by
  cases outcome with
  | ok v => exact expressionValue_insert h s
  | error w => rfl

/-- What two assignments to different variables change does not depend on their order. -/
theorem get?_assigned_assigned {name' : List Char} (hname : name ≠ name')
    (outcome outcome' : Except Warning Scalar) (k : String) :
    (assigned name' (assigned name state outcome) outcome').get? k =
      (assigned name (assigned name' state outcome') outcome).get? k := by
  have hkey : String.ofList name ≠ String.ofList name' :=
    fun he => hname (String.ofList_injective he)
  -- Only where both expressions have a value do two keys have to be told apart.
  cases outcome with
  | error w => cases outcome' <;> rfl
  | ok v =>
    cases outcome' with
    | error w => rfl
    | ok v' =>
      rw [assigned, assigned, assigned, assigned, Mapping.get?_insert, Mapping.get?_insert,
        Mapping.get?_insert, Mapping.get?_insert]
      by_cases hk : k = String.ofList name
      · subst hk
        rw [if_neg hkey, if_pos rfl, if_pos rfl]
      · rw [if_neg hk, if_neg hk]

/-! ## Two assignments -/

/-- Whether an instruction is one assignment, with all of its quotes closed. -/
structure IsAssignment (s : String) (name expression : List Char) : Prop where
  whole : split [",".toList] s.toList = [s.toList]
  closed : afterText none s.toList = none
  reads : statement? s.toList = some (name, expression)

section

variable {first second : String} {name₁ name₂ expression₁ expression₂ : List Char}

/-- An instruction that is one assignment changes the variable of that assignment. -/
theorem IsAssignment.result_execute (h : IsAssignment first name₁ expression₁) (state : State) :
    (execute (some first) state).result =
      (expressionValue (trim first.toList) expression₁ state).map (assigned name₁ state) := by
  have hstatements : statements first.toList = [trim first.toList] :=
    statements_of_whole h.whole (trim_ne_nil_of_statement? h.reads)
  have hreads : statement? (trim first.toList) = some (name₁, expression₁) := by
    rw [statement?_trim, h.reads]
  have hlast (after : State) : (executeAll after []).result = .ok after := rfl
  rw [execute, hstatements, executeAll, Logged.result_bind, result_executeStatement hreads]
  simp only [hlast]
  cases expressionValue (trim first.toList) expression₁ state <;> rfl

/-- Of two assignments the second takes its values from the variables before the first, if it does
not take the variable of the first. -/
theorem result_execute_pair (h₁ : IsAssignment first name₁ expression₁)
    (h₂ : IsAssignment second name₂ expression₂) (hread : name₁ ∉ operands expression₂)
    (state : State) :
    (execute (some (first ++ "," ++ second)) state).result = do
      let outcome₁ ← expressionValue (trim first.toList) expression₁ state
      let outcome₂ ← expressionValue (trim second.toList) expression₂ state
      return assigned name₂ (assigned name₁ state outcome₁) outcome₂ := by
  rw [execute_comma h₁.closed, Logged.result_bind, h₁.result_execute]
  simp only [h₂.result_execute]
  cases expressionValue (trim first.toList) expression₁ state with
  | error e => rfl
  | ok outcome₁ =>
    show (expressionValue _ expression₂ (assigned name₁ state outcome₁)).map _ = _
    rw [expressionValue_assigned hread]
    cases expressionValue (trim second.toList) expression₂ state <;> rfl

/-- **Independent assignments run in either order**: if neither takes the variable of the other,
then where one order has a result the other has one too, and every variable has the same value.
Either order gives the two variables the values of their expressions at the start. -/
theorem execute_swap (h₁ : IsAssignment first name₁ expression₁)
    (h₂ : IsAssignment second name₂ expression₂) (hname : name₁ ≠ name₂)
    (hread₁ : name₂ ∉ operands expression₁) (hread₂ : name₁ ∉ operands expression₂)
    {after : State} (h : (execute (some (first ++ "," ++ second)) state).result = .ok after) :
    (∃ after', (execute (some (second ++ "," ++ first)) state).result = .ok after' ∧
      ∀ k, after'.get? k = after.get? k) ∧
    ∃ outcome₁ outcome₂, expressionValue (trim first.toList) expression₁ state = .ok outcome₁ ∧
      expressionValue (trim second.toList) expression₂ state = .ok outcome₂ ∧
      after = assigned name₂ (assigned name₁ state outcome₁) outcome₂ := by
  -- Both orders take both values from the variables at the start.
  rw [result_execute_pair h₁ h₂ hread₂] at h
  rw [result_execute_pair h₂ h₁ hread₁]
  obtain ⟨outcome₁, hvalue₁, h⟩ := Except.bind_eq_ok_iff.1 h
  obtain ⟨outcome₂, hvalue₂, h⟩ := Except.bind_eq_ok_iff.1 h
  cases h
  refine ⟨?_, outcome₁, outcome₂, hvalue₁, hvalue₂, rfl⟩
  rw [hvalue₁, hvalue₂]
  exact ⟨_, rfl, get?_assigned_assigned hname.symm outcome₂ outcome₁⟩

end

/-- What a buyer has, and what is asked for. -/
def buyer : State :=
  Mapping.ofList [("gold", .int 7), ("price", .float 2.5)]

/-- Paying and writing down what is owed both take the price. -/
theorem buyer_swaps :
    IsAssignment "gold = gold - price" "gold".toList "gold - price".toList ∧
      IsAssignment " owed = price + 0.5 " "owed".toList "price + 0.5".toList ∧
      ∃ after after',
        (execute (some ("gold = gold - price" ++ "," ++ " owed = price + 0.5 ")) buyer).result =
            .ok after ∧
          (execute (some (" owed = price + 0.5 " ++ "," ++ "gold = gold - price")) buyer).result =
            .ok after' ∧
          ∀ k, after'.get? k = after.get? k := by
  have hpay : IsAssignment "gold = gold - price" "gold".toList "gold - price".toList :=
    ⟨by cbv, by decide, by cbv⟩
  have howe : IsAssignment " owed = price + 0.5 " "owed".toList "price + 0.5".toList :=
    ⟨by cbv, by decide, by cbv⟩
  have hgold : operands "gold - price".toList = ["gold".toList, "price".toList] := by
    decide +kernel
  have howed : operands "price + 0.5".toList = ["price".toList, "0.5".toList] := by
    decide +kernel
  obtain ⟨after, hafter⟩ := Except.exists_of_isOk
    (x := (execute (some ("gold = gold - price" ++ "," ++ " owed = price + 0.5 ")) buyer).result)
    (by decide +kernel)
  obtain ⟨⟨after', hafter', hsame⟩, -⟩ := execute_swap hpay howe (by decide)
    (by rw [hgold]; decide) (by rw [howed]; decide) hafter
  exact ⟨hpay, howe, after, after', hafter, hafter', hsame⟩

end Expr

end Storyline
