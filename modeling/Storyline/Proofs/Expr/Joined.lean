import Storyline.Proofs.Expr.Conjunction

/-!
# Parts put together again

A text that is cut loses nothing but the separators at which it is cut: the parts with these between
them are the text. A separator is taken only where no quotation is open, so every part but the last
closes its quotations, and a part that is cut again stays whole.

A sub-condition is such a part without its blank ends, so it has no sub-conditions but itself. The
evaluation of a condition therefore asks for that of its sub-conditions at most, and never for that
of their parts.

## Main definitions

* `removed`: the separators that are taken away where a text is cut
* `joined`: parts with separators between them
* `evaluateOnce`: whether a condition holds, given whether its sub-conditions hold

## Main results

* `joined_splitOutside`: the parts of a text with the separators between them are the text
* `closed_of_splitOutside`: every part but the last closes its quotations
* `evaluateChars_twice`: what the parts of a sub-condition would be is never asked
* `split_exact`: cutting loses nothing, and is over after one time
-/

namespace Storyline.Expr

open Text

/-! ## Separators between parts -/

/-- The separators that are taken away where a text is cut, in order. -/
def removed (seps : List (List Char)) (quote : Option Char) : List Char → List (List Char)
  | [] => []
  | c :: r =>
    match separatorAt seps quote (c :: r) with
    | some sep => sep :: removed seps none (r.drop (sep.length - 1))
    | none => removed seps (afterChar quote c) r
termination_by s => s.length
decreasing_by
  all_goals simp only [List.length_cons, List.length_drop]
  all_goals omega

/-- Parts with separators between them. -/
def joined (parts seps : List (List Char)) : List Char :=
  (List.zipWith (· ++ ·) parts (seps ++ [[]])).flatten

section

variable {seps parts : List (List Char)} {quote : Option Char} {c : Char} {r s sep : List Char}

theorem removed_nil (seps : List (List Char)) (quote : Option Char) :
    removed seps quote [] = [] := by
  rw [removed]

theorem removed_separator (h : separatorAt seps quote (c :: r) = some sep) :
    removed seps quote (c :: r) = sep :: removed seps none (r.drop (sep.length - 1)) := by
  rw [removed, h]

theorem removed_char (h : separatorAt seps quote (c :: r) = none) :
    removed seps quote (c :: r) = removed seps (afterChar quote c) r := by
  rw [removed, h]

theorem joined_cons (p sep : List Char) (parts seps : List (List Char)) :
    joined (p :: parts) (sep :: seps) = p ++ sep ++ joined parts seps := by
  rw [joined, List.cons_append, List.zipWith_cons_cons, List.flatten_cons, joined]

/-- A character in front of the first part stands in front of the text. -/
theorem joined_consHead (h : parts ≠ []) (c : Char) (seps : List (List Char)) :
    joined (consHead c parts) seps = c :: joined parts seps := by
  obtain ⟨p, ps, rfl⟩ := List.exists_cons_of_ne_nil h
  cases seps <;> rfl

theorem mem_of_mem_removed (hseps : [] ∉ seps) (h : sep ∈ removed seps quote s) : sep ∈ seps := by
  induction quote, s using removed.induct seps with
  | case1 quote =>
    rw [removed_nil] at h
    cases h
  | case2 quote c r found hfound ih =>
    rw [removed_separator hfound] at h
    rcases List.mem_cons.1 h with rfl | h
    · exact (eq_append_of_separatorAt hseps hfound).2.1
    · exact ih h
  | case3 quote c r hnone ih =>
    rw [removed_char hnone] at h
    exact ih h

/-- Between two parts one separator was taken away. -/
theorem length_removed (seps : List (List Char)) (quote : Option Char) (s : List Char) :
    (removed seps quote s).length + 1 = (splitOutside seps quote s).length := by
  induction quote, s using removed.induct seps with
  | case1 quote => rw [removed_nil, splitOutside_nil]; rfl
  | case2 quote c r sep hsep ih =>
    rw [removed_separator hsep, splitOutside_separator hsep, List.length_cons, List.length_cons, ih]
  | case3 quote c r hsep ih =>
    rw [removed_char hsep, splitOutside_char hsep, length_consHead (splitOutside_ne_nil _ _ _), ih]

/-- **The parts of a text with the separators between them are the text.** -/
theorem joined_splitOutside (hseps : [] ∉ seps) (quote : Option Char) (s : List Char) :
    joined (splitOutside seps quote s) (removed seps quote s) = s := by
  -- Both scans take the same steps, so one induction follows them.
  induction quote, s using removed.induct seps with
  | case1 quote => rw [removed_nil, splitOutside_nil]; rfl
  | case2 quote c r sep hsep ih =>
    obtain ⟨-, -, htext⟩ := eq_append_of_separatorAt hseps hsep
    rw [removed_separator hsep, splitOutside_separator hsep, joined_cons, ih, List.nil_append,
      ← htext]
  | case3 quote c r hsep ih =>
    rw [removed_char hsep, splitOutside_char hsep, joined_consHead (splitOutside_ne_nil _ _ _), ih]

/-- What holds of a first element that is not the last, and of the others but the last. -/
theorem forall_mem_dropLast_cons {α : Type} {P : α → Prop} {a : α} {as : List α}
    (hfirst : as ≠ [] → P a) (hrest : ∀ b ∈ as.dropLast, P b) : ∀ b ∈ (a :: as).dropLast, P b := by
  cases as with
  | nil => exact List.forall_mem_nil P
  | cons b bs => exact List.forall_mem_cons.2 ⟨hfirst (List.cons_ne_nil b bs), hrest⟩

/-- Every part but the last closes its quotations, the first one also that which is open before
it. -/
theorem closed_of_splitOutside (hseps : [] ∉ seps) (quote : Option Char) (s : List Char) :
    ∃ p ps, splitOutside seps quote s = p :: ps ∧ (ps ≠ [] → afterText quote p = none) ∧
      ∀ q ∈ ps.dropLast, afterText none q = none := by
  induction quote, s using splitOutside.induct seps with
  | case1 quote => exact ⟨[], [], splitOutside_nil seps quote, by simp, by simp⟩
  | case2 quote c r sep hsep ih =>
    obtain ⟨p, ps, hcut, hfirst, hrest⟩ := ih
    -- A separator stands where no quote is open, so nothing is open at the end of the part before.
    refine ⟨[], p :: ps, ?_, fun _ => (eq_append_of_separatorAt hseps hsep).1, ?_⟩
    · rw [splitOutside_separator hsep, hcut]
    · exact forall_mem_dropLast_cons hfirst hrest
  | case3 quote c r hsep ih =>
    obtain ⟨p, ps, hcut, hfirst, hrest⟩ := ih
    exact ⟨c :: p, ps, by rw [splitOutside_char hsep, hcut, consHead], hfirst, hrest⟩

theorem closed_of_mem_dropLast (hseps : [] ∉ seps) {p : List Char}
    (h : p ∈ (split seps s).dropLast) : afterText none p = none := by
  obtain ⟨q, qs, hcut, hfirst, hrest⟩ := closed_of_splitOutside hseps none s
  rw [split, hcut] at h
  exact forall_mem_dropLast_cons hfirst hrest p h

end

/-! ## Levels of evaluation -/

/-- Whether a condition holds, given whether its sub-conditions hold. -/
def evaluateOnce (holds : List Char → Logged NumberFault Bool) (c : List Char) (state : State) :
    Logged NumberFault Bool :=
  if c.all isBlank then pure true
  else if 1 < (subconditions c).length then allHold holds (subconditions c)
  else evaluateSingle c state

/-- The evaluation of a condition is one level over that of its sub-conditions. -/
theorem evaluateChars_eq_once (c : List Char) (state : State) :
    evaluateChars c state = evaluateOnce (evaluateChars · state) c state := by
  unfold evaluateOnce
  split
  · next hblank => rw [evaluateChars, if_pos hblank]
  · next hblank =>
    split
    · next hmany => exact evaluateChars_of_many hmany state
    · next hmany => rw [evaluateChars, if_neg hblank, dif_neg hmany]

theorem allHold_congr {ε α : Type} {test test' : α → Logged ε Bool} {l : List α}
    (h : ∀ x ∈ l, test x = test' x) : allHold test l = allHold test' l := by
  induction l with
  | nil => rfl
  | cons x xs ih =>
    obtain ⟨hx, hxs⟩ := List.forall_mem_cons.1 h
    rw [allHold, allHold, hx, ih hxs]

/-- What has one sub-condition is evaluated without asking whether a sub-condition holds. -/
theorem evaluateOnce_of_single {c : List Char} (h : (subconditions c).length = 1)
    (holds : List Char → Logged NumberFault Bool) (state : State) :
    evaluateOnce holds c state = evaluateSingle c state := by
  rw [evaluateOnce, if_neg (not_all_isBlank (by omega)), if_neg (by omega)]

/-- **Evaluation goes one level deep**: what would be said of the parts of a sub-condition is never
asked. -/
theorem evaluateChars_twice (deeper : List Char → Logged NumberFault Bool) (c : List Char)
    (state : State) :
    evaluateChars c state = evaluateOnce (fun s => evaluateOnce deeper s state) c state := by
  -- A sub-condition is its only sub-condition, so it is evaluated as it stands.
  have hsub : ∀ s ∈ subconditions c, evaluateChars s state = evaluateOnce deeper s state := by
    intro s hs
    have hone : (subconditions s).length = 1 := by
      rw [subconditions_of_mem hs]
      rfl
    rw [evaluateChars_of_single hone, evaluateOnce_of_single hone]
  rw [evaluateChars_eq_once, evaluateOnce, evaluateOnce, allHold_congr hsub]

/-- **Cutting loses nothing, and is over after one time.** The parts of a text with the removed
separators between them are the text, every part but the last closes its quotations, and each part
is its own only part. So a sub-condition has no sub-conditions but itself, and the evaluation of a
condition, which is one level over that of its sub-conditions, never goes a level deeper: whatever
the evaluation of a part of a sub-condition would be, it makes no difference. -/
theorem split_exact :
    (∀ (seps : List (List Char)) (s : List Char), [] ∉ seps →
      joined (split seps s) (removed seps none s) = s ∧
        (removed seps none s).length + 1 = (split seps s).length ∧
        (∀ sep ∈ removed seps none s, sep ∈ seps) ∧
        (∀ p ∈ (split seps s).dropLast, afterText none p = none) ∧
        ∀ p ∈ split seps s, split seps p = [p]) ∧
      ∀ condition : String,
        (∀ t ∈ subconditions condition.toList,
          split conjunctions t = [t] ∧ subconditions t = [t]) ∧
        ∀ (state : State) (deeper : List Char → Logged NumberFault Bool),
          evaluate (some condition) state =
              evaluateOnce (evaluateChars · state) condition.toList state ∧
            evaluate (some condition) state =
              evaluateOnce (fun s => evaluateOnce deeper s state) condition.toList state := by
  refine ⟨fun seps s hseps => ⟨?_, ?_, ?_, ?_, ?_⟩, fun condition => ⟨fun t ht => ⟨?_, ?_⟩, ?_⟩⟩
  · exact joined_splitOutside hseps none s
  · exact length_removed seps none s
  · exact fun sep hsep => mem_of_mem_removed hseps hsep
  · exact fun p hp => closed_of_mem_dropLast hseps hp
  · exact fun p hp => (uncut_of_mem_splitOutside hp).splitOutside_eq
  · exact (of_mem_subconditions ht).2.2.splitOutside_eq
  · exact subconditions_of_mem ht
  · exact fun state deeper => ⟨evaluateChars_eq_once condition.toList state,
      evaluateChars_twice deeper condition.toList state⟩

/-- Of two separators at one place the first in the list counts, none counts between quotes, and a
quotation that is not closed ends with the text. -/
theorem split_exact_ampersands :
    [] ∉ ["&&".toList, "&".toList] ∧
      split ["&&".toList, "&".toList] "a&&&'b&'&'c&".toList =
        ["a".toList, [], "'b&'".toList, "'c&".toList] ∧
      removed ["&&".toList, "&".toList] none "a&&&'b&'&'c&".toList =
        ["&&".toList, "&".toList, "&".toList] ∧
      joined ["a".toList, [], "'b&'".toList, "'c&".toList]
        ["&&".toList, "&".toList, "&".toList] = "a&&&'b&'&'c&".toList ∧
      split ["&&".toList, "&".toList] "'c&".toList = ["'c&".toList] := by
  have hseps : [] ∉ ["&&".toList, "&".toList] := by decide
  have hparts : split ["&&".toList, "&".toList] "a&&&'b&'&'c&".toList =
      ["a".toList, [], "'b&'".toList, "'c&".toList] := by decide +kernel
  have hremoved : removed ["&&".toList, "&".toList] none "a&&&'b&'&'c&".toList =
      ["&&".toList, "&".toList, "&".toList] := by decide +kernel
  obtain ⟨hjoined, -, -, -, hself⟩ := split_exact.1 _ "a&&&'b&'&'c&".toList hseps
  rw [hparts, hremoved] at hjoined
  rw [hparts] at hself
  exact ⟨hseps, hparts, hremoved, hjoined, hself _ (by simp)⟩

end Storyline.Expr
