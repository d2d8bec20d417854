import Storyline.Expr.Condition
import Storyline.Proofs.Text.Trim

/-!
# Texts that are not cut

A text is cut at the separators outside its quotes, so in none of its parts there is one left. A
part that is cut again stays whole, and so does what is left of it without its blank ends.

## Main definitions

* `Uncut`: a text without separators outside quotes
* `Unmarked`: a text of which no character opens a quotation or begins a separator

## Main results

* `Uncut.splitOutside_eq`: such a text is its only part
* `uncut_of_splitOutside`: the parts of a text have no separators left
* `splitOutside_append`: an unmarked text in front lengthens the first part
* `subconditions_of_mem`: a sub-condition is its only sub-condition
-/

namespace Storyline.Expr

open Text

/-! ## Separators outside quotes -/

/-- Whether no separator stands outside quotes in a text, given the quote open before it. -/
def Uncut (seps : List (List Char)) : Option Char → List Char → Prop
  | _, [] => True
  | quote, c :: r => separatorAt seps quote (c :: r) = none ∧ Uncut seps (afterChar quote c) r

section

variable {seps : List (List Char)} {quote : Option Char} {c : Char} {r s t : List Char}

theorem splitOutside_nil (seps : List (List Char)) (quote : Option Char) :
    splitOutside seps quote [] = [[]] := by
  rw [splitOutside]

theorem splitOutside_separator {sep : List Char} (h : separatorAt seps quote (c :: r) = some sep) :
    splitOutside seps quote (c :: r) = [] :: splitOutside seps none (r.drop (sep.length - 1)) := by
  rw [splitOutside, h]

theorem splitOutside_char (h : separatorAt seps quote (c :: r) = none) :
    splitOutside seps quote (c :: r) = consHead c (splitOutside seps (afterChar quote c) r) := by
  rw [splitOutside, h]

/-- Where a text is cut, no quote is open and the separator is taken away. -/
theorem eq_append_of_separatorAt {sep : List Char} (hseps : [] ∉ seps)
    (h : separatorAt seps quote (c :: r) = some sep) :
    quote = none ∧ sep ∈ seps ∧ c :: r = sep ++ r.drop (sep.length - 1) := by
  unfold separatorAt at h
  split at h
  · cases h
  · next hopen =>
    rw [Bool.or_eq_true, not_or] at hopen
    have hmem := List.mem_of_find?_eq_some h
    obtain ⟨t, ht⟩ := List.isPrefixOf_iff_prefix.1
      (List.find?_some (p := fun x : List Char => x.isPrefixOf (c :: r)) h)
    obtain ⟨d, ds, rfl⟩ := List.exists_cons_of_ne_nil (ne_of_mem_of_not_mem hmem hseps)
    obtain ⟨rfl, rfl⟩ := List.cons.inj ht
    exact ⟨by simpa using hopen.1, hmem, by simp⟩

/-- A text begins with no separator if a longer one does not. -/
theorem separatorAt_of_shorter (hs : s ≠ []) (hst : s <+: t)
    (h : separatorAt seps quote t = none) : separatorAt seps quote s = none := by
  have hhead : t.head? = s.head? := by
    obtain ⟨c, r, rfl⟩ := List.exists_cons_of_ne_nil hs
    obtain ⟨u, rfl⟩ := hst
    rfl
  unfold separatorAt at h ⊢
  rw [hhead] at h
  split
  · rfl
  · next hopen =>
    rw [if_neg hopen, List.find?_eq_none] at h
    rw [List.find?_eq_none]
    intro sep hsep hprefix
    refine h sep hsep (List.isPrefixOf_iff_prefix.2 ?_)
    exact (List.isPrefixOf_iff_prefix.1 hprefix).trans hst

/-- A text without separators outside quotes is its only part. -/
theorem Uncut.splitOutside_eq (h : Uncut seps quote s) : splitOutside seps quote s = [s] := by
  induction s generalizing quote with
  | nil => exact splitOutside_nil seps quote
  | cons c r ih =>
    rw [splitOutside_char h.1, ih h.2]
    rfl

theorem Uncut.of_append_left (h : Uncut seps quote (s ++ t)) : Uncut seps quote s := by
  induction s generalizing quote with
  | nil => trivial
  | cons c r ih =>
    refine ⟨separatorAt_of_shorter (List.cons_ne_nil c r) ?_ h.1, ih h.2⟩
    exact ⟨t, rfl⟩

theorem Uncut.of_append_right (h : Uncut seps quote (s ++ t)) :
    Uncut seps (afterText quote s) t := by
  induction s generalizing quote with
  | nil => exact h
  | cons c r ih => exact ih h.2

/-- The parts of a text are stretches of it with no separators left. The first of them stands at the
start, and only before it a quote may be open. -/
theorem uncut_of_splitOutside (seps : List (List Char)) (quote : Option Char) (s : List Char) :
    ∃ p ps, splitOutside seps quote s = p :: ps ∧ p <+: s ∧ Uncut seps quote p ∧
      ∀ q ∈ ps, q <:+: s ∧ Uncut seps none q := by
  induction quote, s using splitOutside.induct seps with
  | case1 quote => exact ⟨[], [], splitOutside_nil seps quote, List.prefix_rfl, trivial, by simp⟩
  | case2 quote c r sep hsep ih =>
    obtain ⟨p, ps, hcut, hprefix, hp, hps⟩ := ih
    have hdrop : r.drop (sep.length - 1) <:+: c :: r :=
      ((List.drop_suffix _ r).trans (List.suffix_cons c r)).isInfix
    have hfirst : p <:+: c :: r := hprefix.isInfix.trans hdrop
    rw [splitOutside_separator hsep, hcut]
    refine ⟨[], p :: ps, rfl, List.nil_prefix, trivial, List.forall_mem_cons.2 ⟨⟨hfirst, hp⟩, ?_⟩⟩
    exact fun q hq => ⟨(hps q hq).1.trans hdrop, (hps q hq).2⟩
  | case3 quote c r hsep ih =>
    obtain ⟨p, ps, hcut, hprefix, hp, hps⟩ := ih
    have hlonger : c :: p <+: c :: r := List.cons_prefix_cons.2 ⟨rfl, hprefix⟩
    rw [splitOutside_char hsep, hcut]
    refine ⟨c :: p, ps, rfl, hlonger, ⟨?_, hp⟩, fun q hq => ⟨?_, (hps q hq).2⟩⟩
    · exact separatorAt_of_shorter (List.cons_ne_nil c p) hlonger hsep
    · exact (hps q hq).1.trans (List.suffix_cons c r).isInfix

theorem uncut_of_mem_splitOutside {p : List Char} (h : p ∈ splitOutside seps none s) :
    Uncut seps none p := by
  obtain ⟨q, qs, hcut, -, hq, hqs⟩ := uncut_of_splitOutside seps none s
  rw [hcut] at h
  rcases List.mem_cons.1 h with rfl | h
  · exact hq
  · exact (hqs p h).2

/-! ## Blank ends -/

theorem isQuote_of_isBlank (h : isBlank c = true) : isQuote c = false := by
  cases hquote : isQuote c with
  | false => rfl
  | true =>
    rw [isQuote, Bool.or_eq_true, beq_iff_eq, beq_iff_eq] at hquote
    rcases hquote with rfl | rfl <;> exact absurd h (by decide)

theorem afterChar_of_not_isQuote (h : isQuote c = false) : afterChar none c = none := by
  rw [afterChar, h]
  rfl

/-- Text without quotes opens no quotation. -/
theorem afterText_of_forall (h : ∀ c ∈ s, isQuote c = false) : afterText none s = none := by
  induction s with
  | nil => rfl
  | cons c r ih =>
    obtain ⟨hc, hr⟩ := List.forall_mem_cons.1 h
    rw [afterText, List.foldl_cons, afterChar_of_not_isQuote hc]
    exact ih hr

theorem afterText_of_blank (h : Blank s) : afterText none s = none :=
  afterText_of_forall fun c hc => isQuote_of_isBlank (h c hc)

/-- A text that is not cut is not cut without its blank ends either. -/
theorem Uncut.trim (h : Uncut seps none s) : Uncut seps none (trim s) := by
  obtain ⟨front, back, hfront, -, hs⟩ := exists_eq_append_trim s
  rw [hs] at h
  have hright := h.of_append_right
  rw [afterText_of_blank hfront] at hright
  exact hright.of_append_left

/-! ## Text in front -/

/-- Whether no character of a text is a quote or begins a separator. -/
def Unmarked (seps : List (List Char)) (s : List Char) : Prop :=
  ∀ c ∈ s, isQuote c = false ∧ ∀ sep ∈ seps, sep ≠ [] ∧ sep.head? ≠ some c

theorem separatorAt_of_unmarked (h : Unmarked seps (c :: r)) (t : List Char) :
    separatorAt seps none (c :: t) = none := by
  obtain ⟨hquote, hseps⟩ := h c List.mem_cons_self
  unfold separatorAt
  rw [if_neg (by simp [hquote]), List.find?_eq_none]
  intro sep hsep hprefix
  obtain ⟨hne, hhead⟩ := hseps sep hsep
  obtain ⟨d, ds, rfl⟩ := List.exists_cons_of_ne_nil hne
  refine hhead ?_
  rw [(List.cons_prefix_cons.1 (List.isPrefixOf_iff_prefix.1 hprefix)).1]
  rfl

/-- In an unmarked text in front there is no separator. -/
theorem uncut_append_of_unmarked (h : Unmarked seps s) :
    Uncut seps none (s ++ t) ↔ Uncut seps none t := by
  induction s with
  | nil => rfl
  | cons c r ih =>
    rw [List.cons_append, Uncut, separatorAt_of_unmarked h,
      afterChar_of_not_isQuote (h c List.mem_cons_self).1,
      ih fun d hd => h d (List.mem_cons_of_mem c hd)]
    exact and_iff_right rfl

theorem Unmarked.uncut (h : Unmarked seps s) : Uncut seps none s := by
  have happend := (uncut_append_of_unmarked (t := []) h).2 trivial
  rwa [List.append_nil] at happend

/-- An unmarked text in front lengthens the first part. -/
theorem splitOutside_append {p : List Char} {ps : List (List Char)} (h : Unmarked seps s)
    (ht : splitOutside seps none t = p :: ps) :
    splitOutside seps none (s ++ t) = (s ++ p) :: ps := by
  induction s with
  | nil => exact ht
  | cons c r ih =>
    rw [List.cons_append, splitOutside_char (separatorAt_of_unmarked h _),
      afterChar_of_not_isQuote (h c List.mem_cons_self).1,
      ih fun d hd => h d (List.mem_cons_of_mem c hd)]
    rfl

end

/-! ## Sub-conditions -/

/-- The separators between sub-conditions. -/
def conjunctions : List (List Char) :=
  ["&&".toList, ",".toList]

/-- A sub-condition is trimmed, not empty and not cut. -/
theorem of_mem_subconditions {c s : List Char} (h : s ∈ subconditions c) :
    s ≠ [] ∧ trim s = s ∧ Uncut conjunctions none s := by
  obtain ⟨hmem, hne⟩ := List.mem_filter.1 h
  obtain ⟨p, hp, rfl⟩ := List.mem_map.1 hmem
  exact ⟨by simpa using hne, trim_trim p, (uncut_of_mem_splitOutside hp).trim⟩

/-- What is not cut has one sub-condition, unless it is blank. -/
theorem subconditions_of_uncut {c : List Char} (h : Uncut conjunctions none c)
    (hc : trim c ≠ []) : subconditions c = [trim c] := by
  have hcut : split ["&&".toList, ",".toList] c = [c] := h.splitOutside_eq
  rw [subconditions, hcut]
  simp [hc]

/-- A sub-condition is its only sub-condition. -/
theorem subconditions_of_mem {c s : List Char} (h : s ∈ subconditions c) :
    subconditions s = [s] := by
  obtain ⟨hne, htrim, huncut⟩ := of_mem_subconditions h
  rw [subconditions_of_uncut huncut (by rwa [htrim]), htrim]

end Storyline.Expr
