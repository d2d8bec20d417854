import Storyline.Proofs.Outcome
import Storyline.Yaml.Number

/-!
# Numerals of too many digits

An integer is not read if it is spelled in base ten with more digits than there may be. Underscores,
blanks, a sign and the colons between places in base sixty do not count, so that the text of such an
integer is at least as long as its digits are many.

## Main definitions

* `Overrun`: a number fault that says so of a text

## Main results

* `overrun_of_intValue`: no other number fault arises where an integer is read
-/

namespace Storyline.Yaml

open Except Number

/-- Whether a number fault is that the digits spelled in a text are too many. -/
def Overrun (text : List Char) (f : NumberFault) : Prop :=
  ∃ count, f = .tooManyDigits count ∧ digitLimit < count ∧ count ≤ text.length

variable {s t : List Char} {f : NumberFault}

theorem Overrun.weaken (h : Overrun s f) (hle : s.length ≤ t.length) : Overrun t f := by
  obtain ⟨count, hf, hlimit, hcount⟩ := h
  exact ⟨count, hf, hlimit, Nat.le_trans hcount hle⟩

/-! ## Digits -/

theorem length_of_mapM? {α β : Type} {g : α → Option β} {as : List α} {bs : List β}
    (h : as.mapM g = some bs) : bs.length = as.length := by
  induction as generalizing bs with
  | nil =>
    cases h
    rfl
  | cons a as ih =>
    rw [List.mapM_cons] at h
    obtain ⟨b, -, h⟩ := Option.bind_eq_some_iff.1 h
    obtain ⟨bs', hbs, h⟩ := Option.bind_eq_some_iff.1 h
    cases h
    exact congrArg (· + 1) (ih hbs)

theorem length_trimBlanks_le (s : List Char) : (trimBlanks s).length ≤ s.length := by
  have hfront := (List.dropWhile_sublist (l := s) isNumberBlank).length_le
  have hback := (List.dropWhile_sublist (l := (s.dropWhile isNumberBlank).reverse)
    isNumberBlank).length_le
  rw [List.length_reverse] at hback
  rw [trimBlanks, List.length_reverse]
  omega

theorem length_splitSign_le (s : List Char) : (splitSign s).2.length ≤ s.length := by
  unfold splitSign
  split
  · exact Nat.le_succ _
  · exact Nat.le_succ _
  · exact Nat.le_refl _

theorem length_afterBase_le (base : Nat) (s : List Char) :
    (afterBase base s).length ≤ s.length := by
  unfold afterBase
  split
  · split
    · split <;> simp only [List.length_cons] <;> omega
    · exact Nat.le_refl _
  · exact Nat.le_refl _

theorem length_withoutUnderscores?_le (h : withoutUnderscores? s = some t) :
    t.length ≤ s.length := by
  unfold withoutUnderscores? at h
  split at h
  · cases h
    exact List.length_filter_le _ _
  · cases h

theorem length_spelledDigits?_le {base : Nat} {p : Bool × List Nat}
    (h : spelledDigits? base s = some p) : p.2.length ≤ s.length := by
  have hdef : spelledDigits? base s =
      (withoutUnderscores? (afterBase base (splitSign (trimBlanks s)).2)).bind fun r =>
        (r.mapM (digitIn? base)).bind fun ds => some ((splitSign (trimBlanks s)).1, ds) := rfl
  rw [hdef] at h
  obtain ⟨r, hr, h⟩ := Option.bind_eq_some_iff.1 h
  obtain ⟨ds, hds, h⟩ := Option.bind_eq_some_iff.1 h
  cases h
  calc ds.length = r.length := length_of_mapM? hds
    _ ≤ (afterBase base (splitSign (trimBlanks s)).2).length := length_withoutUnderscores?_le hr
    _ ≤ (splitSign (trimBlanks s)).2.length := length_afterBase_le base _
    _ ≤ (trimBlanks s).length := length_splitSign_le _
    _ ≤ s.length := length_trimBlanks_le s

/-- Only in base ten an integer may have too many digits. -/
theorem overrun_of_spelledInt {base : Nat} (h : spelledInt base s = .error f) : Overrun s f := by
  unfold spelledInt at h
  split at h
  · cases h
  · next hdigits =>
    split at h
    · have herror := eq_error_of_map h
      unfold ofSignedDigits at herror
      split at herror
      · next hlimit =>
        cases herror
        exact ⟨_, rfl, hlimit, length_spelledDigits?_le hdigits⟩
      · cases herror
    · cases h

theorem overrun_of_intIn {base : Nat} (h : intIn base s = .error (.number f)) : Overrun s f := by
  unfold intIn at h
  split at h
  · cases h
  · cases h
  · next hspelled =>
    cases h
    exact overrun_of_spelledInt hspelled

/-! ## Integers -/

theorem length_le_of_mem_splitAt {sep : Char} (h : t ∈ Text.splitAt sep s) :
    t.length ≤ s.length := by
  induction s generalizing t with
  | nil =>
    cases List.mem_singleton.1 h
    exact Nat.le_refl _
  | cons c r ih =>
    rw [Text.splitAt] at h
    split at h
    · rcases List.mem_cons.1 h with rfl | h
      · exact Nat.zero_le _
      · exact Nat.le_succ_of_le (ih h)
    · split at h
      · next hnil => exact absurd hnil (Text.splitAt_ne_nil sep r)
      · next hsplit =>
        rcases List.mem_cons.1 h with rfl | h
        · exact Nat.succ_le_succ (ih (hsplit ▸ List.mem_cons_self))
        · exact Nat.le_succ_of_le (ih (hsplit ▸ List.mem_cons_of_mem _ h))

theorem length_signOf_le (s : List Char) : (signOf s).2.length ≤ s.length := by
  unfold signOf
  split
  · exact Nat.le_succ _
  · exact Nat.le_succ _
  · exact Nat.le_refl _

/-- **An integer that is not read for a number fault has too many digits in its text.** -/
theorem overrun_of_intValue (h : intValue s = .error (.number f)) : Overrun s f := by
  have hle : (signOf (s.filter (· ≠ '_'))).2.length ≤ s.length :=
    Nat.le_trans (length_signOf_le _) (List.length_filter_le _ _)
  refine Overrun.weaken ?_ hle
  have hsigned {base : Nat} {r : List Char} {sign : Int}
      (h : (do return sign * (← intIn base r)) = (.error (.number f) : Except Defect Int)) :
      Overrun r f :=
    overrun_of_intIn (eq_error_of_map h)
  unfold intValue at h
  extract_lets digits read at h
  split at h
  · cases h
  dsimp only [read, digits] at h
  generalize (signOf (s.filter (· ≠ '_'))).2 = r at h ⊢
  split at h
  · cases h
  · cases h
  · exact (hsigned h).weaken (Nat.le_add_right _ 2)
  · exact (hsigned h).weaken (Nat.le_add_right _ 2)
  · exact hsigned h
  · split at h
    · -- Of the places in base sixty one has too many digits.
      have hfault := fault?_eq_some_iff.2 (eq_error_of_map h)
      rw [fault?_mapM] at hfault
      obtain ⟨place, hplace, hfault⟩ := List.exists_of_findSome?_eq_some hfault
      exact (overrun_of_intIn (fault?_eq_some_iff.1 hfault)).weaken
        (length_le_of_mem_splitAt hplace)
    · exact hsigned h

end Storyline.Yaml
