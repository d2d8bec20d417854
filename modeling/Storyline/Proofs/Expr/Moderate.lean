import Storyline.Proofs.Expr.Conjunction
import Storyline.Proofs.Expr.Stretch
import Storyline.Proofs.Mapping
import Storyline.Proofs.Number.Range
import Storyline.Proofs.Outcome

/-!
# Evaluation with moderate numbers

Integers are unbounded, but they are compared as doubles, and read and written with a limit on their
digits. So evaluation ends in a fault at an integer that has no double, be it stored in a variable
or spelled in a text. With moderate numbers only it gives a result. Texts of up to 255 characters
spell no others.

## Main definitions

* `Scalar.Moderate`, `State.Moderate`: moderate values and variables
* `ModerateText`: a text without a stretch that spells a number too large

## Main results

* `exists_resolve`, `exists_compare`: operands stand for moderate values, which can be compared
* `exists_evaluateChars`: conditions
* `exists_executeAll`: assignments, as long as their results are moderate
* `exists_fillBlocks`, `exists_fillNames`: the two passes over a template
* `evaluation_returns`: evaluation with moderate numbers gives a result
-/

namespace Storyline

/-! ## Moderate values -/

/-- Whether a value is no integer without a double and no text that spells one. -/
def Scalar.Moderate : Scalar → Prop
  | .bool _ => True
  | .int n => (Number.int n).Moderate
  | .float _ => True
  | .str s => Number.ModerateLiteral s.toList

/-- Whether the values of all variables are moderate. -/
def State.Moderate (state : State) : Prop :=
  ∀ name v, state.get? name = some v → v.Moderate

theorem moderate_ofList {ps : List (String × Scalar)} (h : ∀ p ∈ ps, p.2.Moderate) :
    State.Moderate (Mapping.ofList ps) :=
  fun _ _ hv => h _ (Mapping.mem_of_get?_ofList hv)

theorem State.Moderate.insert {state : State} (h : state.Moderate) {name : String} {v : Scalar}
    (hv : v.Moderate) : State.Moderate (Mapping.insert state name v) := by
  intro other w hw
  rw [Mapping.get?_insert] at hw
  split at hw
  · cases hw
    exact hv
  · exact h other w hw

theorem Scalar.moderate_ofNumber {n : Number} (h : n.Moderate) : (ofNumber n).Moderate := by
  cases n with
  | int n => exact h
  | float x => trivial

theorem Scalar.moderate_of_number? {v : Scalar} {n : Number} (hv : v.Moderate)
    (h : v.number? = some n) : n.Moderate := by
  cases v with
  | bool b => cases h
  | int m =>
    cases h
    exact hv
  | float x =>
    cases h
    trivial
  | str s => cases h

namespace Operand

variable {a b : Operand} {s : String}

theorem exists_textToFloat (h : Number.ModerateLiteral s.toList) : ∃ x, textToFloat s = .ok x := by
  obtain ⟨n, hn, hmoderate⟩ := h
  unfold textToFloat
  split
  · exact ⟨_, rfl⟩
  · rw [hn]
    cases n with
    | none => exact ⟨_, rfl⟩
    | some m => exact Number.exists_toFloat_iff.2 (hmoderate m rfl)

theorem exists_toFloat (h : ∀ v ∈ a, v.Moderate) : ∃ x, a.toFloat = .ok x := by
  cases a with
  | none => exact ⟨_, rfl⟩
  | some v =>
    have hv := h v rfl
    cases v with
    | bool b => exact ⟨_, rfl⟩
    | int n => exact Number.exists_floatOfInt_iff.2 hv
    | float x => exact ⟨_, rfl⟩
    | str s => exact exists_textToFloat hv

/-- Two values are compared for equality unless a text that is read for it spells a number too
large; integers are not made doubles here. -/
theorem exists_equalsPlain {v w : Scalar} (hv : v.Moderate) (hw : w.Moderate) :
    ∃ r, equalsPlain v w = .ok r := by
  have hread {s : String} (h : (Scalar.str s).Moderate) (f : Float → Bool) :
      ∃ r, (do return f (← textToFloat s) : Except NumberFault Bool) = .ok r := by
    obtain ⟨x, hx⟩ := exists_textToFloat h
    exact ⟨f x, by rw [hx]; rfl⟩
  unfold equalsPlain
  split
  · exact ⟨_, rfl⟩
  · exact ⟨_, rfl⟩
  · split
    · exact hread hw _
    · exact ⟨_, rfl⟩
  · split
    · exact hread hv _
    · exact ⟨_, rfl⟩
  · split
    · exact ⟨_, rfl⟩
    · exact ⟨_, rfl⟩

theorem exists_looseEquals (ha : ∀ v ∈ a, v.Moderate) (hb : ∀ v ∈ b, v.Moderate) :
    ∃ r, looseEquals a b = .ok r := by
  have hfloat (x : Float) : (Scalar.float x).Moderate := trivial
  unfold looseEquals
  split
  · exact ⟨_, rfl⟩
  · exact ⟨_, rfl⟩
  · exact ⟨_, rfl⟩
  · exact ⟨_, rfl⟩
  · exact exists_equalsPlain (hfloat _) (hb _ rfl)
  · exact exists_equalsPlain (ha _ rfl) (hfloat _)
  · exact exists_equalsPlain (ha _ rfl) (hb _ rfl)

theorem exists_display (h : ∀ v ∈ a, v.Moderate) : ∃ t, a.display = .ok t := by
  cases a with
  | none => exact ⟨_, rfl⟩
  | some v =>
    have hv := h v rfl
    cases v with
    | bool b => exact ⟨_, rfl⟩
    | int n => exact Number.exists_writeInt_of_lt hv
    | float x =>
      unfold display
      dsimp only
      split
      · exact ⟨_, rfl⟩
      · exact ⟨_, rfl⟩
      · next hint => exact Number.exists_writeInt_of_toInt? hint
      · exact ⟨_, rfl⟩
    | str s => exact ⟨_, rfl⟩

end Operand

namespace Expr

open Text

/-- Whether no stretch of a text spells a number too large. -/
def ModerateText (s : List Char) : Prop :=
  ∀ t, t <:+: s → Number.ModerateLiteral t

variable {s t : List Char} {state : State}

theorem ModerateText.within (h : ModerateText s) (ht : t <:+: s) : ModerateText t :=
  fun u hu => h u (hu.trans ht)

/-- Short texts are moderate. -/
theorem moderateText_of_length (h : s.length ≤ 255) : ModerateText s :=
  fun _ ht => Number.moderateLiteral_of_length (ht.length_le.trans h)

/-! ## Operands -/

/-- A moderate operand stands for a moderate value, if for any. -/
theorem exists_resolve (hstate : state.Moderate) (h : ModerateText t) :
    ∃ a, resolve t state = .ok a ∧ ∀ v ∈ a, v.Moderate := by
  unfold resolve
  split
  · exact ⟨_, rfl, fun v hv => by cases hv; trivial⟩
  · split
    · exact ⟨_, rfl, fun v hv => by cases hv; trivial⟩
    · obtain ⟨n, hn, hmoderate⟩ := h t List.infix_rfl
      rw [hn]
      cases n with
      | some m =>
        refine ⟨_, rfl, fun v hv => ?_⟩
        cases hv
        exact Scalar.moderate_ofNumber (hmoderate m rfl)
      | none =>
        cases htext : unquoted? t with
        | some u =>
          refine ⟨some (.str (String.ofList u)), rfl, fun v hv => ?_⟩
          cases hv
          show Number.ModerateLiteral (String.ofList u).toList
          rw [String.toList_ofList]
          exact h u (infix_of_unquoted? htext)
        | none =>
          exact ⟨state.get? (String.ofList t), rfl, hstate _⟩

/-- Moderate operands can be compared. -/
theorem exists_compare {a b : Operand} (o : Comparison) (ha : ∀ v ∈ a, v.Moderate)
    (hb : ∀ v ∈ b, v.Moderate) : ∃ r, compare o a b = .ok r := by
  have hequal := Operand.exists_looseEquals ha hb
  have hordered (f : Float → Float → Bool) : ∃ r, compare.ordered a b f = .ok r := by
    obtain ⟨x, hx⟩ := Operand.exists_toFloat ha
    obtain ⟨y, hy⟩ := Operand.exists_toFloat hb
    rw [compare.ordered, hx, hy]
    exact ⟨_, rfl⟩
  cases o with
  | eq => exact hequal
  | ne =>
    obtain ⟨r, hr⟩ := hequal
    exact ⟨!r, by rw [compare, hr]; rfl⟩
  | ge | le | gt | lt => exact hordered _

/-! ## Conditions -/

theorem exists_evaluateSingle (hstate : state.Moderate) (h : ModerateText s) :
    ∃ r, (evaluateSingle s state).result = .ok r := by
  have hoperand {t : List Char} (ht : .operand t ∈ tokenize s) :=
    exists_resolve hstate (h.within (infix_of_mem_tokenize ht))
  unfold evaluateSingle
  split
  · next a htokens =>
    obtain ⟨x, hx, -⟩ := hoperand (t := a) (by rw [htokens]; simp)
    rw [hx]
    exact ⟨_, rfl⟩
  · next a o b htokens =>
    obtain ⟨x, hx, hxm⟩ := hoperand (t := a) (by rw [htokens]; simp)
    obtain ⟨y, hy, hym⟩ := hoperand (t := b) (by rw [htokens]; simp)
    rw [hx, hy]
    exact exists_compare o hxm hym
  · exact ⟨false, rfl⟩

theorem exists_allHold {ε α : Type} {test : α → Logged ε Bool} {l : List α}
    (h : ∀ x ∈ l, ∃ r, (test x).result = .ok r) : ∃ r, (allHold test l).result = .ok r := by
  induction l with
  | nil => exact ⟨true, rfl⟩
  | cons x xs ih =>
    obtain ⟨⟨r, hr⟩, hxs⟩ := List.forall_mem_cons.1 h
    rw [allHold, Logged.result_bind_ok hr]
    cases r with
    | true => exact ih hxs
    | false => exact ⟨false, rfl⟩

/-- A moderate condition holds or does not. -/
theorem exists_evaluateChars (hstate : state.Moderate) (h : ModerateText s) :
    ∃ r, (evaluateChars s state).result = .ok r := by
  by_cases hmany : 1 < (subconditions s).length
  · rw [evaluateChars_of_many hmany]
    refine exists_allHold fun t ht => ?_
    -- A sub-condition is not cut again.
    rw [evaluateChars_of_single (by rw [subconditions_of_mem ht]; rfl)]
    exact exists_evaluateSingle hstate (h.within (infix_of_mem_subconditions ht))
  · rw [evaluateChars, dif_neg hmany]
    split
    · exact ⟨true, rfl⟩
    · exact exists_evaluateSingle hstate h

/-! ## Assignments -/

theorem exists_combine (sign : Sign) {m n : Number} (hm : m.Moderate) (hn : n.Moderate) :
    ∃ k, combine sign m n = .ok k := by
  obtain ⟨x, hx⟩ := Number.exists_toFloat_iff.2 hm
  obtain ⟨y, hy⟩ := Number.exists_toFloat_iff.2 hn
  unfold combine
  split
  · exact ⟨_, rfl⟩
  · rw [hx, hy]
    exact ⟨_, rfl⟩

theorem exists_arithmetic? (h : ModerateText s) : ∃ p, arithmetic? s = .ok p ∧
    ∀ left sign right, p = some (left, sign, right) → left <:+: s ∧ right <:+: s := by
  obtain ⟨n, hn, -⟩ := h s List.infix_rfl
  unfold arithmetic?
  rw [hn]
  cases n with
  | some m => exact ⟨none, rfl, by rintro _ _ _ ⟨⟩⟩
  | none =>
    cases hsign : firstSign? none [] s with
    | none => exact ⟨none, rfl, by rintro _ _ _ ⟨⟩⟩
    | some p =>
      obtain ⟨left, sign, right⟩ := p
      have happend : left ++ sign.char :: right = s := append_of_firstSign? hsign
      have hleft : left <:+: s := ⟨[], sign.char :: right, happend⟩
      have hright : right <:+: s := ⟨left ++ [sign.char], [], by simpa using happend⟩
      refine ⟨_, rfl, fun l sg r hp => ?_⟩
      split at hp
      · cases hp
      · cases hp
        exact ⟨(trim_isInfix left).trans hleft, (trim_isInfix right).trans hright⟩

/-- A moderate expression gives a value, or a reason why it gives none. -/
theorem exists_expressionValue (hstate : state.Moderate) (h : ModerateText t)
    (statement : List Char) : ∃ r, expressionValue statement t state = .ok r := by
  obtain ⟨p, hp, hinfix⟩ := exists_arithmetic? h
  refine Except.exists_bind_of_eq hp ?_
  cases p with
  | none =>
    obtain ⟨a, ha, -⟩ := exists_resolve hstate h
    refine Except.exists_bind_of_eq ha ?_
    cases a with
    | none => exact ⟨_, rfl⟩
    | some v => exact ⟨_, rfl⟩
  | some p =>
    obtain ⟨left, sign, right⟩ := p
    obtain ⟨hleft, hright⟩ := hinfix left sign right rfl
    obtain ⟨a, ha, ham⟩ := exists_resolve hstate (h.within hleft)
    obtain ⟨b, hb, hbm⟩ := exists_resolve hstate (h.within hright)
    refine Except.exists_bind_of_eq ha (Except.exists_bind_of_eq hb ?_)
    split
    · next m n hm hn =>
      obtain ⟨v, hv, hvm⟩ := Option.bind_eq_some_iff.1 hm
      obtain ⟨w, hw, hwn⟩ := Option.bind_eq_some_iff.1 hn
      have hmm := Scalar.moderate_of_number? (ham v hv) hvm
      have hnm := Scalar.moderate_of_number? (hbm w hw) hwn
      obtain ⟨k, hk⟩ := exists_combine sign hmm hnm
      exact Except.exists_bind_of_eq hk ⟨_, rfl⟩
    · exact ⟨_, rfl⟩

/-- One moderate assignment can be carried out, or is left out. -/
theorem exists_executeStatement (hstate : state.Moderate) (h : ModerateText s) :
    ∃ state', (executeStatement state s).result = .ok state' := by
  unfold executeStatement
  split
  · exact ⟨state, rfl⟩
  · next name expression hs =>
    obtain ⟨r, hr⟩ := exists_expressionValue hstate (h.within (infix_of_statement? hs)) s
    rw [Logged.result_bind_ok hr]
    cases r with
    | ok v => exact ⟨_, rfl⟩
    | error w => exact ⟨state, rfl⟩

/-- Moderate assignments can be carried out as long as each one finds moderate variables. -/
theorem exists_executeAll {ss : List (List Char)} (htexts : ∀ s ∈ ss, ModerateText s)
    (hstates : ∀ front s back state', ss = front ++ s :: back →
      (executeAll state front).result = .ok state' → state'.Moderate) :
    ∃ state', (executeAll state ss).result = .ok state' := by
  induction ss generalizing state with
  | nil => exact ⟨state, rfl⟩
  | cons s rest ih =>
    obtain ⟨hs, hrest⟩ := List.forall_mem_cons.1 htexts
    obtain ⟨state', hstate'⟩ := exists_executeStatement (hstates [] s rest state rfl rfl) hs
    rw [executeAll, Logged.result_bind_ok hstate']
    refine ih hrest fun front t back state'' heq hfront => ?_
    refine hstates (s :: front) t back state'' (by rw [heq]; rfl) ?_
    rw [executeAll, Logged.result_bind_ok hstate']
    exact hfront

/-! ## Templates -/

/-- In a moderate template every block can be decided. -/
theorem exists_fillBlocks (hstate : state.Moderate) (h : ModerateText s) :
    ∃ r, (fillBlocks state s).result = .ok r := by
  -- The induction is on the length, since a block is passed over as a whole.
  induction hn : s.length using Nat.strongRecOn generalizing s with
  | ind n ih =>
    cases s with
    | nil => exact ⟨[], by rw [fillBlocks]; rfl⟩
    | cons c r =>
      rw [fillBlocks]
      split
      · next b hb =>
        have hrest := shorterEnd_of_block? hb
        obtain ⟨holds, hholds⟩ := exists_evaluateChars hstate (h.within (infix_of_block? hb))
        obtain ⟨filled, hfilled⟩ :=
          ih b.rest.length (hn ▸ hrest.length_lt) (h.within hrest.suffix.isInfix) rfl
        rw [Logged.result_bind_ok hholds, Logged.result_bind_ok hfilled]
        exact ⟨_, rfl⟩
      · obtain ⟨filled, hfilled⟩ :=
          ih r.length (hn ▸ Nat.lt_succ_self _) (h.within (List.suffix_cons c r).isInfix) rfl
        rw [Logged.result_bind_ok hfilled]
        exact ⟨_, rfl⟩

/-- Moderate variables can be filled in, whatever the text. -/
theorem exists_fillNames (hstate : state.Moderate) (s : List Char) :
    ∃ r, fillNames state s = .ok r := by
  induction hn : s.length using Nat.strongRecOn generalizing s with
  | ind n ih =>
    cases s with
    | nil => exact ⟨[], by rw [fillNames]; rfl⟩
    | cons c r =>
      rw [fillNames]
      split
      · next name rest hname =>
        have hlt := (shorterEnd_of_name? hname).length_lt
        obtain ⟨filled, hfilled⟩ := ih rest.length (hn ▸ hlt) rest rfl
        dsimp only
        split
        · next v hv =>
          obtain ⟨t, ht⟩ := Operand.exists_display (a := some v) fun w hw => by
            cases hw
            exact hstate _ v hv
          refine Except.exists_bind_of_eq ht (Except.exists_bind_of_eq rfl ?_)
          exact Except.exists_bind_of_eq hfilled ⟨_, rfl⟩
        · refine Except.exists_bind_of_eq rfl ?_
          exact Except.exists_bind_of_eq hfilled ⟨_, rfl⟩
      · obtain ⟨filled, hfilled⟩ := ih r.length (hn ▸ Nat.lt_succ_self _) r rfl
        exact Except.exists_bind_of_eq hfilled ⟨_, rfl⟩

/-- A moderate template can be filled in. -/
theorem exists_interpolate (hstate : state.Moderate) {text : String}
    (h : ModerateText text.toList) : ∃ t, (interpolate text state).result = .ok t := by
  obtain ⟨s, hs⟩ := exists_fillBlocks hstate h
  obtain ⟨t, ht⟩ := exists_fillNames hstate s
  rw [interpolate, Logged.result_bind_ok hs, Logged.result_bind_ok ht]
  exact ⟨_, rfl⟩

/-! ## Results -/

/-- **Evaluation with moderate numbers gives a result**: every condition holds or does not, every
instruction leads to variables as long as each of its assignments finds moderate ones, and every
template becomes a text. -/
theorem evaluation_returns (hstate : state.Moderate) :
    (∀ condition : Option String, (∀ c ∈ condition, ModerateText c.toList) →
      ∃ r, (evaluate condition state).result = .ok r) ∧
    (∀ instruction : Option String, (∀ i ∈ instruction, ModerateText i.toList ∧
      ∀ front s back state', statements i.toList = front ++ s :: back →
        (executeAll state front).result = .ok state' → state'.Moderate) →
      ∃ state', (execute instruction state).result = .ok state') ∧
    ∀ text : String, ModerateText text.toList → ∃ t, (interpolate text state).result = .ok t := by
  refine ⟨fun condition h => ?_, fun instruction h => ?_, fun text h => ?_⟩
  · cases condition with
    | none => exact ⟨true, rfl⟩
    | some c => exact exists_evaluateChars hstate (h c rfl)
  · cases instruction with
    | none => exact ⟨state, rfl⟩
    | some i =>
      obtain ⟨htext, hstates⟩ := h i rfl
      exact exists_executeAll (fun s hs => htext.within (infix_of_mem_statements hs)) hstates
  · exact exists_interpolate hstate h

/-- What a traveller carries. -/
def purse : State :=
  Mapping.ofList [("gold", .int 7), ("weight", .float 0.5), ("owner", .str "Ann")]

theorem moderate_purse : purse.Moderate := by
  refine moderate_ofList ?_
  rw [List.forall_mem_cons, List.forall_mem_cons, List.forall_mem_singleton]
  refine ⟨?_, trivial, Number.moderateLiteral_of_length (by decide)⟩
  show 7 < Number.floatBound
  decide +kernel

theorem purse_pays : (executeStatement purse "gold = gold - 5".toList).result =
    .ok (purse.insert "gold" (.int 2)) := by
  have hstatement : statement? "gold = gold - 5".toList =
      some ("gold".toList, "gold - 5".toList) := by cbv
  have harithmetic : arithmetic? "gold - 5".toList =
      .ok (some ("gold".toList, .minus, "5".toList)) := by decide +kernel
  rw [executeStatement, hstatement]
  dsimp only
  rw [expressionValue, harithmetic]
  rfl

theorem purse_returns : purse.Moderate ∧
    (∃ r, (evaluate (some "gold >= 5 && owner == 'Ann'") purse).result = .ok r) ∧
    (∃ state', (execute (some "gold = gold - 5, debt = gold") purse).result = .ok state') ∧
    ∃ t, (interpolate "\x7b\x7bowner\x7d\x7d has \x7b\x7bgold\x7d\x7d" purse).result =
      .ok t := by
  obtain ⟨hevaluate, hexecute, hinterpolate⟩ := evaluation_returns moderate_purse
  refine ⟨moderate_purse, hevaluate _ ?_, hexecute _ ?_, hinterpolate _ ?_⟩
  · rintro _ ⟨⟩
    exact moderateText_of_length (by decide)
  · rintro _ ⟨⟩
    refine ⟨moderateText_of_length (by decide), fun front s back state' heq hrun => ?_⟩
    have hstatements : statements "gold = gold - 5, debt = gold".toList =
        ["gold = gold - 5".toList, "debt = gold".toList] := by cbv
    rw [hstatements] at heq
    -- None of the assignments has run, or the first one.
    rcases front with _ | ⟨t, _ | ⟨u, front⟩⟩
    · cases hrun
      exact moderate_purse
    · obtain ⟨rfl, -⟩ := List.cons.inj heq
      rw [executeAll, Logged.result_bind_ok purse_pays] at hrun
      cases hrun
      refine moderate_purse.insert ?_
      show 2 < Number.floatBound
      decide +kernel
    · simp at heq
  · exact moderateText_of_length (by decide)

/-- An integer without a double cannot be compared by order or added to a double, and one with too
many digits cannot be filled in. -/
theorem evaluation_fails :
    (evaluate (some "gold < 5") (Mapping.ofList [("gold", .int (10 ^ 400))])).result =
        .error .tooLargeForFloat ∧
      (execute (some "gold = gold + 0.5")
        (Mapping.ofList [("gold", .int (10 ^ 400))])).result.isOk = false ∧
      (interpolate "\x7b\x7bgold\x7d\x7d" (Mapping.ofList [("gold", .int (10 ^ 5000))])).result =
        .error .tooLongToWrite :=
  ⟨by decide +kernel, by decide +kernel, by decide +kernel⟩

end Expr

end Storyline
