import Storyline.Proofs.Text.Lines

/-!
# Trimmed texts

A text is trimmed when no blank stands at its ends, and every text is its trimmed part between
blanks.

## Main definitions

* `Filled`: a text that is trimmed and not empty

## Main results

* `trim_eq_self_iff`: which texts are trimmed
* `trim_trim`: trimming gives a trimmed text
* `exists_eq_append_trim`: what trimming takes away
* `trim_isInfix`: a trimmed text is a stretch of the text
* `trim_append_blank`: blanks at the end do not count
* `Filled.between`: filled texts at both ends make a text filled
* `map_trim_lines_trim_unlines`: trimming joined lines changes the blank ends of lines only
* `length_lines_trim_unlines`: trimming keeps the number of lines
-/

namespace Storyline.Text

/-- A text is trimmed exactly when it has no blank at its ends. -/
theorem trim_eq_self_iff {s : List Char} :
    trim s = s ↔ (∀ c ∈ s.head?, isBlank c = false) ∧ ∀ c ∈ s.getLast?, isBlank c = false := by
  constructor
  · intro h
    rw [← h]
    exact ⟨isBlank_of_mem_head?_trim, isBlank_of_mem_getLast?_trim⟩
  · rintro ⟨hhead, hlast⟩
    by_cases hne : s = []
    · rw [hne]
      rfl
    · obtain ⟨r, hr, htrim⟩ := exists_trim_append hne hhead hlast []
      rw [List.append_nil, List.prefix_nil.1 hr, List.append_nil] at htrim
      exact htrim

theorem trim_of_forall {s : List Char} (h : ∀ c ∈ s, isBlank c = false) : trim s = s :=
  trim_eq_self_iff.2 ⟨fun c hc => h c (List.mem_of_head? hc),
    fun c hc => h c (List.mem_of_getLast? hc)⟩

/-- Trimming gives a trimmed text. -/
@[simp] theorem trim_trim (s : List Char) : trim (trim s) = trim s :=
  trim_eq_self_iff.2 ⟨isBlank_of_mem_head?_trim, isBlank_of_mem_getLast?_trim⟩

@[simp] theorem trimmed_trimmed (s : String) : trimmed (trimmed s) = trimmed s := by
  unfold trimmed
  rw [String.toList_ofList, trim_trim]

/-- Blanks at the end do not count. -/
theorem trim_append_blank (s : List Char) {t : List Char} (h : Blank t) :
    trim (s ++ t) = trim s := by
  by_cases hs : Blank s
  · rw [trim_append hs, trim_eq_nil_iff.2 hs, trim_eq_nil_iff.2 h]
  · rw [trim, trimLeft_append hs, trimRight_append_of_blank h]
    rfl

/-- Trimming takes away blanks in front and blanks at the end. -/
theorem exists_eq_append_trim (s : List Char) :
    ∃ front back, Blank front ∧ Blank back ∧ s = front ++ (trim s ++ back) := by
  have htake (t : List Char) : Blank (t.takeWhile isBlank) :=
    List.all_eq_true.1 List.all_takeWhile
  -- The blanks at the end are those in front of the reversed text.
  have hback : trimLeft s = trim s ++ ((trimLeft s).reverse.takeWhile isBlank).reverse := by
    rw [trim, trimRight, ← List.reverse_append, List.takeWhile_append_dropWhile,
      List.reverse_reverse]
  refine ⟨s.takeWhile isBlank, ((trimLeft s).reverse.takeWhile isBlank).reverse, htake s,
    blank_reverse.2 (htake _), ?_⟩
  rw [← hback]
  exact List.takeWhile_append_dropWhile.symm

/-- A trimmed text is a stretch of the text. -/
theorem trim_isInfix (s : List Char) : trim s <:+: s := by
  obtain ⟨front, back, -, -, hs⟩ := exists_eq_append_trim s
  exact ⟨front, back, by rw [List.append_assoc, ← hs]⟩

/-! ## Filled texts -/

/-- Whether a text is trimmed and not empty. -/
def Filled (s : List Char) : Prop :=
  s ≠ [] ∧ trim s = s

theorem filled_of_forall {s : List Char} (hne : s ≠ []) (h : ∀ c ∈ s, isBlank c = false) :
    Filled s :=
  ⟨hne, trim_of_forall h⟩

theorem filled_trim {s : List Char} (h : ¬Blank s) : Filled (trim s) :=
  ⟨fun hnil => h (trim_eq_nil_iff.1 hnil), trim_trim s⟩

theorem Filled.not_blank {s : List Char} (h : Filled s) : ¬Blank s := by
  intro hblank
  obtain ⟨hne, htrim⟩ := h
  exact hne (htrim ▸ trim_eq_nil_iff.2 hblank)

/-- Filled texts at both ends make a text filled. -/
theorem Filled.between {s t : List Char} (hs : Filled s) (ht : Filled t) (u : List Char) :
    Filled (s ++ u ++ t) := by
  obtain ⟨hsne, hstrim⟩ := hs
  obtain ⟨htne, httrim⟩ := ht
  refine ⟨by simp [hsne], trim_eq_self_iff.2 ⟨?_, ?_⟩⟩
  · intro c hc
    obtain ⟨d, r, rfl⟩ := List.exists_cons_of_ne_nil hsne
    exact (trim_eq_self_iff.1 hstrim).1 c hc
  · intro c hc
    have hlast := List.getLast?_eq_some_getLast htne
    rw [List.getLast?_append, hlast] at hc
    exact (trim_eq_self_iff.1 httrim).2 c (hlast ▸ hc)

theorem Filled.append {s t : List Char} (hs : Filled s) (ht : Filled t) : Filled (s ++ t) := by
  simpa using hs.between ht []

/-! ## Lines -/

theorem trim_trimLeft (s : List Char) : trim (trimLeft s) = trim s := by
  have hfront : Blank (s.takeWhile isBlank) := List.all_eq_true.1 List.all_takeWhile
  have hs : s.takeWhile isBlank ++ trimLeft s = s := List.takeWhile_append_dropWhile
  conv => rhs; rw [← hs, trim_append hfront]

theorem trim_trimRight (s : List Char) : trim (trimRight s) = trim s := by
  have hback : Blank (s.reverse.takeWhile isBlank).reverse :=
    blank_reverse.2 (List.all_eq_true.1 List.all_takeWhile)
  have hs : trimRight s ++ (s.reverse.takeWhile isBlank).reverse = s := by
    rw [trimRight, ← List.reverse_append, List.takeWhile_append_dropWhile, List.reverse_reverse]
  conv => rhs; rw [← hs, trim_append_blank _ hback]

/-- Trimming joined lines, of which the first and the last are not blank, changes nothing but blank
ends of lines. -/
theorem map_trim_lines_trim_unlines {ls : List (List Char)} (hne : ls ≠ [])
    (hbreak : ∀ l ∈ ls, '\n' ∉ l) (hhead : ∀ l ∈ ls.head?, ¬Blank l)
    (hlast : ∀ l ∈ ls.getLast?, ¬Blank l) :
    (lines (trim (unlines ls))).map trim = ls.map trim := by
  obtain ⟨l, rest, rfl⟩ := List.exists_cons_of_ne_nil hne
  rcases List.eq_nil_or_concat rest with rfl | ⟨mid, m, hrest⟩
  · have hcut : ∀ k ∈ [trim l], '\n' ∉ k := by
      rintro k hk hb
      rw [List.mem_singleton.1 hk] at hb
      exact hbreak l List.mem_cons_self (mem_of_mem_trim hb)
    change (lines (unlines [trim l])).map trim = [trim l]
    rw [lines_unlines (List.cons_ne_nil (trim l) []) hcut, List.map_singleton, trim_trim]
  · rw [List.concat_eq_append] at hrest
    subst hrest
    have hl : ¬Blank l := hhead l rfl
    have hm : ¬Blank m := hlast m (by rw [← List.cons_append, List.getLast?_concat]; rfl)
    have hcut : ∀ k ∈ trimLeft l :: mid ++ [trimRight m], '\n' ∉ k := by
      intro k hk hb
      rcases List.mem_append.1 hk with hk | hk
      · rcases List.mem_cons.1 hk with rfl | hk
        · exact hbreak l List.mem_cons_self (mem_of_mem_trimLeft hb)
        · exact hbreak k (by simp [hk]) hb
      · rw [List.mem_singleton.1 hk] at hb
        exact hbreak m (by simp) (mem_of_mem_trimRight hb)
    rw [← List.cons_append, trim_unlines hl hm, lines_unlines (by simp) hcut]
    simp [trim_trimLeft, trim_trimRight]

/-- Trimming joined lines of which the first and the last are not blank keeps their number. -/
theorem length_lines_trim_unlines {ls : List (List Char)} (hne : ls ≠ [])
    (hbreak : ∀ l ∈ ls, '\n' ∉ l) (hhead : ∀ l ∈ ls.head?, ¬Blank l)
    (hlast : ∀ l ∈ ls.getLast?, ¬Blank l) :
    (lines (trim (unlines ls))).length = ls.length := by
  simpa using congrArg List.length (map_trim_lines_trim_unlines hne hbreak hhead hlast)

end Storyline.Text
