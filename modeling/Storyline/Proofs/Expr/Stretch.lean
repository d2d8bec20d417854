import Storyline.Expr.Assignment
import Storyline.Expr.Template
import Storyline.Proofs.Expr.Comparison

/-!
# Stretches of an expression

Whatever is read of a condition, an instruction or a template is a stretch of it: sub-conditions,
assignments, operands, the text between quotes and the conditions of blocks. So what holds of all
stretches of a text holds of all that is read of it.

## Main definitions

* `CutFrom`: a text cut at operators, of which every part is a stretch of another text

## Main results

* `infix_of_mem_subconditions`, `infix_of_mem_statements`: the parts between separators
* `infix_of_mem_tokenize`, `infix_of_unquoted?`: the operands of a comparison
* `infix_of_statement?`, `append_of_firstSign?`: the parts of an assignment
* `infix_of_block?`: the condition of a block
-/

namespace Storyline.Expr

open Text

section

variable {r s t : List Char} {seps : List (List Char)}

/-! ## Parts between separators -/

theorem infix_of_mem_split (h : t ∈ split seps s) : t <:+: s := by
  obtain ⟨p, ps, hcut, hp, -, hps⟩ := uncut_of_splitOutside seps none s
  rw [split, hcut] at h
  rcases List.mem_cons.1 h with rfl | h
  · exact hp.isInfix
  · exact (hps t h).1

theorem infix_of_mem_trimmed (h : t ∈ ((split seps s).map trim).filter (· ≠ [])) : t <:+: s := by
  obtain ⟨p, hp, rfl⟩ := List.mem_map.1 (List.mem_filter.1 h).1
  exact (trim_isInfix p).trans (infix_of_mem_split hp)

/-- A sub-condition is a stretch of its condition. -/
theorem infix_of_mem_subconditions (h : t ∈ subconditions s) : t <:+: s :=
  infix_of_mem_trimmed h

/-- An assignment is a stretch of its instruction. -/
theorem infix_of_mem_statements (h : t ∈ statements s) : t <:+: s :=
  infix_of_mem_trimmed h

/-! ## Operands -/

/-- Whether the parts of a cut text are stretches of another text, the first one at its start. -/
def CutFrom (s : List Char) (p : List Char × List (Comparison × List Char)) : Prop :=
  p.1 <+: s ∧ ∀ q ∈ p.2, q.2 <:+: s

theorem CutFrom.consFirst {p : List Char × List (Comparison × List Char)} (h : CutFrom s p)
    (c : Char) : CutFrom (c :: s) (consFirst c p) :=
  ⟨List.cons_prefix_cons.2 ⟨rfl, h.1⟩, fun q hq => (h.2 q hq).trans (List.suffix_cons c s).isInfix⟩

theorem CutFrom.consOperator {p : List Char × List (Comparison × List Char)} (h : CutFrom s p)
    (hs : s <:+ t) (o : Comparison) : CutFrom t (consOperator o p) := by
  have hnil : [] <+: t := List.nil_prefix
  refine ⟨hnil, List.forall_mem_cons.2 ⟨?_, fun q hq => ?_⟩⟩
  · exact h.1.isInfix.trans hs.isInfix
  · exact (h.2 q hq).trans hs.isInfix

theorem suffix_of_operatorAt? {o : Comparison} (h : operatorAt? s = some (o, r)) : r <:+ s := by
  rcases operatorAt?_cases h with ⟨c, rfl, -⟩ | ⟨c, rfl, -⟩
  · exact (List.suffix_cons '=' r).trans (List.suffix_cons c _)
  · exact List.suffix_cons c r

theorem cutFrom_cutOperators (quote : Option Char) (s : List Char) :
    CutFrom s (cutOperators quote s) := by
  -- The induction is on the length, since an operator takes one character or two.
  induction hn : s.length using Nat.strongRecOn generalizing quote s with
  | ind n ih =>
    cases s with
    | nil =>
      rw [cutOperators_nil]
      exact ⟨List.prefix_rfl, List.forall_mem_nil _⟩
    | cons c r =>
      have hr : r.length < n := hn ▸ Nat.lt_succ_self r.length
      cases quote with
      | some q =>
        rw [cutOperators_quoted]
        exact (ih r.length hr _ r rfl).consFirst c
      | none =>
        cases ho : operatorAt? (c :: r) with
        | none =>
          rw [cutOperators_char ho]
          exact (ih r.length hr _ r rfl).consFirst c
        | some p =>
          obtain ⟨o, rest⟩ := p
          have hrest : rest.length < n := hn ▸ length_lt_of_operatorAt? ho
          rw [cutOperators_operator ho]
          exact (ih rest.length hrest _ rest rfl).consOperator (suffix_of_operatorAt? ho) o

theorem infix_of_mem_operandTokens (h : .operand t ∈ operandTokens s) : t <:+: s := by
  unfold operandTokens at h
  split at h
  · cases h
  · cases List.mem_singleton.1 h
    exact trim_isInfix s

/-- An operand is a stretch of its comparison. -/
theorem infix_of_mem_tokenize (h : .operand t ∈ tokenize s) : t <:+: s := by
  obtain ⟨hfirst, hrest⟩ := cutFrom_cutOperators none s
  rcases List.mem_append.1 h with h | h
  · exact (infix_of_mem_operandTokens h).trans hfirst.isInfix
  · obtain ⟨q, hq, h⟩ := List.mem_flatMap.1 h
    rcases List.mem_cons.1 h with h | h
    · cases h
    · exact (infix_of_mem_operandTokens h).trans (hrest q hq)

theorem infix_of_unquoted? (h : unquoted? s = some t) : t <:+: s := by
  unfold unquoted? at h
  split at h
  · split at h
    · obtain rfl := Option.some.inj h
      have hlast := List.dropLast_prefix (s.drop 1)
      exact hlast.isInfix.trans (List.drop_suffix 1 s).isInfix
    · cases h
  · cases h

/-! ## Assignments -/

theorem infix_of_statement? {name : List Char} (h : statement? s = some (name, t)) : t <:+: s := by
  unfold statement? at h
  split at h
  · next left right hcut =>
    dsimp only at h
    split at h
    · cases h
      have hmem : right ∈ split ["=".toList] s := by
        rw [hcut]
        exact List.mem_cons_of_mem left List.mem_cons_self
      exact (trim_isInfix right).trans (infix_of_mem_split hmem)
    · cases h
  · cases h

theorem char_of_sign? {c : Char} {sign : Sign} (h : sign? c = some sign) : sign.char = c := by
  unfold sign? at h
  split at h
  · next hc =>
    cases h
    exact hc.symm
  · split at h
    · next hc =>
      cases h
      exact hc.symm
    · cases h

/-- The operands of a sum or difference are what stands on either side of its sign. -/
theorem append_of_firstSign? {quote : Option Char} {before left right : List Char} {sign : Sign}
    (h : firstSign? quote before s = some (left, sign, right)) :
    left ++ sign.char :: right = before.reverse ++ s := by
  induction s generalizing quote before with
  | nil => cases h
  | cons c r ih =>
    have hlonger : (c :: before).reverse ++ r = before.reverse ++ c :: r := by
      rw [List.reverse_cons, List.append_assoc, List.singleton_append]
    unfold firstSign? at h
    split at h
    · next hsign =>
      split at h
      · exact (ih h).trans hlonger
      · cases h
        rw [char_of_sign? hsign]
    · exact (ih h).trans hlonger

/-! ## Blocks -/

/-- A condition that is read goes on from what was read of it before. -/
theorem prefix_of_conditionAndBranches? {before : List Char} {b : Block}
    (h : conditionAndBranches? before s = some b) : b.condition <+: before.reverse ++ s := by
  induction s generalizing before with
  | nil => cases h
  | cons c r ih =>
    have hlonger : (c :: before).reverse ++ r = before.reverse ++ c :: r := by
      rw [List.reverse_cons, List.append_assoc, List.singleton_append]
    rw [conditionAndBranches?] at h
    split at h
    · cases h
    · split at h
      · cases h
        exact ⟨r, hlonger⟩
      · exact hlonger ▸ ih h

theorem infix_of_afterBlanks? {b : Block} (h : afterBlanks? s = some b) : b.condition <:+: s := by
  induction s generalizing b with
  | nil => cases h
  | cons c r ih =>
    have hr : r <:+: c :: r := (List.suffix_cons c r).isInfix
    rw [afterBlanks?] at h
    split at h
    · split at h
      · next q hq =>
        cases h
        exact (ih hq).trans hr
      · exact (prefix_of_conditionAndBranches? h).isInfix.trans hr
    · cases h

/-- The condition of a block is a stretch of the text that begins with the block. -/
theorem infix_of_block? {b : Block} (h : block? s = some b) : b.condition <:+: s := by
  unfold block? at h
  split at h
  · next r =>
    obtain ⟨u, hu, hb⟩ := Option.bind_eq_some_iff.1 h
    exact (infix_of_afterBlanks? hb).trans (shorterEnd_of_opened hu).suffix.isInfix
  · cases h

end

end Storyline.Expr
