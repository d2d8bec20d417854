import Storyline.Proofs.Expr.Operand
import Storyline.Proofs.Expr.Statement

/-!
# Sums and differences

An expression is cut at its first sign with something in front of it. A sign at the start of an
operand is passed over, and so is every sign in the second operand. A sign in an exponent of the
first operand is not: the expression is cut there, in the middle of the number.

## Main definitions

* `StandsFor`: a text that spells a number, or a variable that holds one
* `operation`: two operands with a sign between them

## Main results

* `firstSign?_cut`: where an expression is cut
* `arithmetic?_operation`: two operands are read back
* `execute_operation`: a sum or difference is given to a variable
* `execute_signedExponent`: a first operand that is not read as a whole
-/

namespace Storyline

namespace Expr

open Text

/-! ## Operands that are numbers -/

/-- Whether a text stands for a number: it spells the number, or it is the name of a variable that
holds it. -/
inductive StandsFor (state : State) (s : List Char) (n : Number) : Prop where
  | literal (trimmed : trim s = s) (reads : Number.readLiteral s = .ok (some n))
  | held (isVariable : IsVariable s) (holds : state.get? (String.ofList s) = some (.ofNumber n))

section

variable {state : State} {s : List Char} {n : Number}

theorem StandsFor.plain (h : StandsFor state s n) : ∀ c ∈ s, c ∉ marks := by
  intro c hc
  cases h with
  | literal trimmed reads =>
    have hnumeric := Number.numeric_of_readLiteral reads
    rw [trimmed] at hnumeric
    exact notMem_marks_of_isNumeral (hnumeric c hc)
  | held isVariable holds => exact isVariable.bare.plain c hc

theorem StandsFor.filled (h : StandsFor state s n) : Filled s := by
  cases h with
  | literal trimmed reads =>
    refine ⟨?_, trimmed⟩
    rintro rfl
    cases reads
  | held isVariable holds => exact ⟨isVariable.ne_nil, isVariable.trim_eq⟩

theorem StandsFor.resolve_eq (h : StandsFor state s n) :
    resolve s state = .ok (some (.ofNumber n)) := by
  cases h with
  | literal trimmed reads =>
    have htrue : s ≠ "true".toList := by
      rintro rfl
      cases reads
    have hfalse : s ≠ "false".toList := by
      rintro rfl
      cases reads
    rw [resolve, if_neg htrue, if_neg hfalse, reads]
    rfl
  | held isVariable holds => rw [isVariable.resolve_eq, holds]

end

/-! ## The first sign -/

section

variable {left right t : List Char}

/-- Two operands with a sign between them. -/
def operation (sign : Sign) (left right : List Char) : List Char :=
  left ++ [' ', sign.char, ' '] ++ right

theorem firstSign?_quoted (q c : Char) (before r : List Char) :
    firstSign? (some q) before (c :: r) =
      firstSign? (afterChar (some q) c) (c :: before) r := by
  rw [firstSign?]
  intro sign h
  cases h

theorem firstSign?_char {c : Char} (h : sign? c = none) (before r : List Char) :
    firstSign? none before (c :: r) = firstSign? (afterChar none c) (c :: before) r := by
  conv_lhs => unfold firstSign?
  rw [h]

theorem firstSign?_sign {c : Char} {sign : Sign} (h : sign? c = some sign)
    (before r : List Char) :
    firstSign? none before (c :: r) =
      if before.all isBlank then firstSign? none (c :: before) r
      else some (before.reverse, sign, r) := by
  rw [firstSign?]
  exact h

/-- Text without quotes and signs is passed over. -/
theorem firstSign?_append {s : List Char} (h : ∀ c ∈ s, isQuote c = false ∧ sign? c = none)
    (before t : List Char) :
    firstSign? none before (s ++ t) = firstSign? none (s.reverse ++ before) t := by
  induction s generalizing before with
  | nil => rfl
  | cons c r ih =>
    obtain ⟨⟨hquote, hsign⟩, hr⟩ := List.forall_mem_cons.1 h
    rw [List.cons_append, firstSign?_char hsign, afterChar_of_not_isQuote hquote, ih hr,
      List.reverse_cons, List.append_assoc]
    rfl

/-- A sign at the start of an operand is passed over. -/
theorem firstSign?_start {c : Char} (h : isQuote c = false) (t : List Char) :
    firstSign? none [] (c :: t) = firstSign? none [c] t := by
  cases hsign : sign? c with
  | some sign => exact firstSign?_sign hsign [] t
  | none => rw [firstSign?_char hsign, afterChar_of_not_isQuote h]

theorem sign?_char (sign : Sign) : sign? sign.char = some sign := by
  cases sign <;> rfl

/-- **An expression is cut at its first sign with something in front of it**, a sign at the start
aside. -/
theorem firstSign?_cut {s : List Char} (hblank : ¬Blank s) (hquotes : ∀ c ∈ s, isQuote c = false)
    (hsigns : ∀ c ∈ s.tail, sign? c = none) (sign : Sign) (t : List Char) :
    firstSign? none [] (s ++ sign.char :: t) = some (s, sign, t) := by
  cases s with
  | nil => exact absurd (List.forall_mem_nil _) hblank
  | cons c r =>
    obtain ⟨hc, hr⟩ := List.forall_mem_cons.1 hquotes
    -- What was read is kept in reverse.
    have hbefore : ¬(r.reverse ++ [c]).all isBlank = true := by
      rw [← List.reverse_cons, List.all_reverse, List.all_eq_true]
      exact hblank
    rw [List.cons_append, firstSign?_start hc, firstSign?_append fun d hd => ⟨hr d hd, hsigns d hd⟩,
      firstSign?_sign (sign?_char sign), if_neg hbefore, List.reverse_append, List.reverse_reverse]
    rfl

/-- **Two operands are read back**, if there is no sign inside the first one. -/
theorem arithmetic?_operation (hleft : Filled left) (hright : Filled right)
    (hquotes : ∀ c ∈ left, isQuote c = false) (hsigns : ∀ c ∈ left.tail, sign? c = none)
    (sign : Sign) : arithmetic? (operation sign left right) = .ok (some (left, sign, right)) := by
  -- The blanks around the sign are no characters of a number.
  have hread : Number.readLiteral (operation sign left right) = .ok none := by
    apply Number.readLiteral_of_not_numeric
    intro hnumeric
    have hfilled : Filled (operation sign left right) := hleft.between hright _
    rw [hfilled.2] at hnumeric
    exact absurd (hnumeric ' ' (by simp [operation])) (by decide)
  have htext : operation sign left right = (left ++ [' ']) ++ sign.char :: ' ' :: right := by
    simp [operation]
  have hcut : firstSign? none [] (operation sign left right) =
      some (left ++ [' '], sign, ' ' :: right) := by
    rw [htext]
    refine firstSign?_cut (fun hall => ?_) ?_ ?_ sign _
    · exact hleft.not_blank fun c hc => hall c (List.mem_append_left _ hc)
    · exact List.forall_mem_append.2 ⟨hquotes, List.forall_mem_singleton.2 (by decide)⟩
    · rw [List.tail_append_of_ne_nil hleft.1]
      exact List.forall_mem_append.2 ⟨hsigns, List.forall_mem_singleton.2 (by decide)⟩
  have htrim : trim (' ' :: right) = right := by
    rw [← List.singleton_append, trim_append blank_space, hright.2]
  rw [arithmetic?, hread, hcut]
  show Except.ok (if trim (' ' :: right) = [] then none else _) = _
  rw [htrim, if_neg hright.1, trim_append_blank left blank_space, hleft.2]

end

/-! ## The value of a sum or difference -/

section

variable {state : State} {name left right : List Char} {m n r : Number}

/-- **A sum or difference of numbers is given to a variable** and nothing is warned of, whichever
way the numbers are spelled, if there is no sign inside the first one. -/
theorem execute_operation (sign : Sign) (hne : name ≠ []) (hword : ∀ c ∈ name, isWord c = true)
    (hleft : StandsFor state left m) (hright : StandsFor state right n)
    (hsigns : ∀ c ∈ left.tail, sign? c = none) (hcombine : combine sign m n = .ok r) :
    execute (some (String.ofList (assignment name (operation sign left right)))) state =
      pure (state.insert (String.ofList name) (.ofNumber r)) := by
  have hquotes : ∀ c ∈ left, isQuote c = false :=
    fun c hc => isQuote_of_notMem_marks (hleft.plain c hc)
  -- The characters of numbers and names are no marks, so nothing is cut inside the expression.
  have hnotMem {mark : Char} (hmark : mark ∈ marks)
      (hbetween : mark ∉ [' ', sign.char, ' ']) : mark ∉ operation sign left right := by
    intro hmem
    rcases List.mem_append.1 hmem with hmem | hmem
    · rcases List.mem_append.1 hmem with hmem | hmem
      · exact hleft.plain mark hmem hmark
      · exact hbetween hmem
    · exact hright.plain mark hmem hmark
  have hcommas : ',' ∉ operation sign left right :=
    hnotMem (by decide) (by cases sign <;> decide)
  have hequals : '=' ∉ operation sign left right :=
    hnotMem (by decide) (by cases sign <;> decide)
  have hfilled : Filled (operation sign left right) := hleft.filled.between hright.filled _
  apply execute_assignment hne hword hfilled (uncut_of_notMem hcommas) (uncut_of_notMem hequals)
  intro s
  have hnumber (k : Number) : (some (Scalar.ofNumber k)).bind Scalar.number? = some k := by
    cases k <;> rfl
  rw [expressionValue, arithmetic?_operation hleft.filled hright.filled hquotes hsigns]
  dsimp only [bind, Except.bind]
  rw [hleft.resolve_eq, hright.resolve_eq]
  dsimp only
  rw [hnumber, hnumber]
  dsimp only
  rw [hcombine]
  rfl

end

/-- What a shopkeeper asks and allows. -/
def shop : State :=
  Mapping.ofList [("price", .float 2.5)]

theorem execute_operation_discount :
    StandsFor shop "price".toList (.float 2.5) ∧ StandsFor shop "-25e-2".toList (.float (-0.25)) ∧
      execute (some (String.ofList
          (assignment "total".toList (operation .minus "price".toList "-25e-2".toList)))) shop =
        pure (shop.insert "total" (.float 2.75)) := by
  have hprice : StandsFor shop "price".toList (.float 2.5) :=
    .held ⟨by decide, List.all_eq_true.1 (by decide), by decide, by decide, by rfl⟩ (by rfl)
  have hdiscount : StandsFor shop "-25e-2".toList (.float (-0.25)) := .literal (by decide) (by rfl)
  have hname : ∀ c ∈ "total".toList, isWord c = true := List.all_eq_true.1 (by decide)
  have hsigns : ∀ c ∈ "price".toList.tail, sign? c = none := by
    have hall : "price".toList.tail.all (fun c => (sign? c).isNone) = true := by decide
    simpa using hall
  have hcombine : combine .minus (.float 2.5) (.float (-0.25)) = .ok (.float 2.75) := by rfl
  refine ⟨hprice, hdiscount, ?_⟩
  exact execute_operation .minus (by decide) hname hprice hdiscount hsigns hcombine

/-- The sign of the exponent is taken for the sign between the operands. -/
theorem execute_signedExponent :
    StandsFor Mapping.empty "5e-1".toList (.float 0.5) ∧
      StandsFor Mapping.empty "3".toList (.int 3) ∧
      combine .plus (.float 0.5) (.int 3) = .ok (.float 3.5) ∧
      (execute (some "x = 5e-1 + 3") Mapping.empty).warnings =
        [.invalidArithmetic "x = 5e-1 + 3"] ∧
      (execute (some "x = 5e-1 + 3") Mapping.empty).result.map Mapping.keys = .ok [] :=
  ⟨.literal (by decide) (by rfl), .literal (by decide) (by rfl), by rfl, by decide +kernel,
    by decide +kernel⟩

end Expr

end Storyline
