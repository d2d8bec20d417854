import Storyline.Text.Lines

/-!
# Lines and trimming

What joining, cutting and trimming do to each other. The blanks that trimming takes away belong to
the first and to the last line when these are not blank.

## Main results

* `trim_unlines`: trimming lines trims the first in front and the last at its end
* `isBlank_of_mem_head?_trim`, `isBlank_of_mem_getLast?_trim`: the ends of a trimmed text
* `exists_trim_append`: a text with no blank at its ends stays in front of what is trimmed with it
-/

namespace Storyline.Text

/-! ## Trimming -/

/-- Whether a text holds blanks only. -/
def Blank (s : List Char) : Prop :=
  ∀ c ∈ s, isBlank c = true

theorem isEmpty_trim_iff {s : List Char} : (trim s).isEmpty = true ↔ Blank s :=
  List.isEmpty_iff.trans trim_eq_nil_iff

theorem blank_space : Blank [' '] :=
  List.forall_mem_singleton.2 rfl

theorem blank_reverse {s : List Char} : Blank s.reverse ↔ Blank s :=
  ⟨fun h c hc => h c (List.mem_reverse.2 hc), fun h c hc => h c (List.mem_reverse.1 hc)⟩

/-- A text that is not blank keeps its blanks from those behind it. -/
theorem trimLeft_append {s : List Char} (h : ¬ Blank s) (t : List Char) :
    trimLeft (s ++ t) = trimLeft s ++ t := by
  unfold trimLeft
  rw [List.dropWhile_append, if_neg]
  intro he
  exact h (trimLeft_eq_nil_iff.1 (List.isEmpty_iff.1 he))

theorem trimRight_append (s : List Char) {t : List Char} (h : ¬ Blank t) :
    trimRight (s ++ t) = s ++ trimRight t := by
  have hrev := trimLeft_append (fun hb => h (blank_reverse.1 hb)) s.reverse
  unfold trimLeft at hrev
  unfold trimRight
  rw [List.reverse_append, hrev, List.reverse_append, List.reverse_reverse]

theorem suffix_trimLeft (s : List Char) : trimLeft s <:+ s :=
  List.dropWhile_suffix isBlank

theorem prefix_trimRight (s : List Char) : trimRight s <+: s := by
  have h := List.reverse_prefix.2 (List.dropWhile_suffix isBlank (l := s.reverse))
  rwa [List.reverse_reverse] at h

theorem mem_of_mem_trimLeft {s : List Char} {c : Char} (h : c ∈ trimLeft s) : c ∈ s :=
  (suffix_trimLeft s).mem h

theorem mem_of_mem_trimRight {s : List Char} {c : Char} (h : c ∈ trimRight s) : c ∈ s :=
  (prefix_trimRight s).mem h

theorem mem_of_mem_trim {s : List Char} {c : Char} (h : c ∈ trim s) : c ∈ s :=
  mem_of_mem_trimLeft (mem_of_mem_trimRight h)

theorem mem_trimLeft_of_mem {s : List Char} {c : Char} (h : c ∈ s) (hc : isBlank c = false) :
    c ∈ trimLeft s := by
  rw [← List.takeWhile_append_dropWhile (p := isBlank) (l := s), List.mem_append] at h
  rcases h with h | h
  · rw [List.all_eq_true.1 List.all_takeWhile c h] at hc
    cases hc
  · exact h

/-- Trimming takes away nothing but blanks. -/
theorem mem_trim_of_mem {s : List Char} {c : Char} (h : c ∈ s) (hc : isBlank c = false) :
    c ∈ trim s := by
  have hleft := mem_trimLeft_of_mem h hc
  rw [← List.mem_reverse] at hleft
  exact List.mem_reverse.2 (mem_trimLeft_of_mem hleft hc)

/-- Trimming takes blanks in front away. -/
theorem trim_append {s : List Char} (h : Blank s) (t : List Char) : trim (s ++ t) = trim t := by
  have hnil : s.dropWhile isBlank = [] := trimLeft_eq_nil_iff.2 h
  rw [trim, trim, trimLeft, trimLeft, List.dropWhile_append, hnil]
  rfl

theorem prefix_trim {c : Char} (hc : isBlank c = false) (s : List Char) :
    trim (c :: s) <+: c :: s := by
  have hleft : trimLeft (c :: s) = c :: s := List.dropWhile_cons_of_neg (by simp [hc])
  rw [trim, hleft]
  exact prefix_trimRight (c :: s)

theorem isBlank_of_mem_head?_trimLeft {s : List Char} : ∀ c ∈ (trimLeft s).head?,
    isBlank c = false := by
  intro c hc
  obtain ⟨r, hr⟩ := List.head?_eq_some_iff.1 hc
  exact isBlank_of_trimLeft_eq_cons hr

/-- A trimmed text begins with no blank. -/
theorem isBlank_of_mem_head?_trim {s : List Char} : ∀ c ∈ (trim s).head?, isBlank c = false := by
  intro c hc
  obtain ⟨r, hr⟩ := List.head?_eq_some_iff.1 hc
  obtain ⟨t, ht⟩ := prefix_trimRight (trimLeft s)
  refine isBlank_of_mem_head?_trimLeft (s := s) c ?_
  rw [← ht, ← trim, hr]
  rfl

/-- A trimmed text ends in no blank. -/
theorem isBlank_of_mem_getLast?_trim {s : List Char} :
    ∀ c ∈ (trim s).getLast?, isBlank c = false := by
  intro c hc
  rw [trim, trimRight, List.getLast?_reverse] at hc
  exact isBlank_of_mem_head?_trimLeft c hc

theorem trimRight_append_of_blank {s t : List Char} (h : Blank t) :
    trimRight (s ++ t) = trimRight s := by
  have hnil : t.reverse.dropWhile isBlank = [] := trimLeft_eq_nil_iff.2 (blank_reverse.2 h)
  rw [trimRight, trimRight, List.reverse_append, List.dropWhile_append, hnil]
  rfl

/-- A text with no blank at its ends stays in front of what is trimmed with it. -/
theorem exists_trim_append {s : List Char} (hne : s ≠ [])
    (hhead : ∀ c ∈ s.head?, isBlank c = false) (hlast : ∀ c ∈ s.getLast?, isBlank c = false)
    (t : List Char) : ∃ r, r <+: t ∧ trim (s ++ t) = s ++ r := by
  have hleft : trimLeft (s ++ t) = s ++ t := by
    obtain ⟨c, r, rfl⟩ := List.exists_cons_of_ne_nil hne
    exact List.dropWhile_cons_of_neg (by simp [hhead c rfl])
  rw [trim, hleft]
  by_cases ht : Blank t
  · refine ⟨[], List.nil_prefix, ?_⟩
    obtain ⟨r, c, hs⟩ := (List.eq_nil_or_concat s).resolve_left hne
    rw [List.concat_eq_append] at hs
    subst hs
    have hc : isBlank c = false := hlast c List.getLast?_concat
    rw [trimRight_append_of_blank ht, trimRight, List.reverse_concat,
      List.dropWhile_cons_of_neg (by simp [hc]), List.append_nil, List.reverse_cons,
      List.reverse_reverse]
  · exact ⟨trimRight t, prefix_trimRight t, trimRight_append s ht⟩

/-! ## Joining -/

theorem unlines_cons (l : List Char) (ls : List (List Char)) :
    unlines (l :: ls) = l ++ ls.flatMap ('\n' :: ·) := by
  induction ls generalizing l with
  | nil => exact (List.append_nil l).symm
  | cons m ms ih =>
    rw [unlines_nil_cons l (List.cons_ne_nil m ms), ih, List.flatMap_cons]
    rfl

theorem unlines_append {ls ms : List (List Char)} (hl : ls ≠ []) (hm : ms ≠ []) :
    unlines (ls ++ ms) = unlines ls ++ '\n' :: unlines ms := by
  cases ls with
  | nil => exact absurd rfl hl
  | cons l ls =>
    cases ms with
    | nil => exact absurd rfl hm
    | cons m ms =>
      rw [List.cons_append, unlines_cons, unlines_cons, unlines_cons, List.flatMap_append,
        List.flatMap_cons, List.append_assoc]
      rfl

theorem unlines_concat (l : List Char) (ls : List (List Char)) (m : List Char) :
    unlines (l :: ls ++ [m]) = l ++ (ls.flatMap ('\n' :: ·) ++ ['\n']) ++ m := by
  rw [unlines_append (List.cons_ne_nil l ls) (List.cons_ne_nil m []), unlines_cons,
    List.append_cons, ← List.append_assoc]
  rfl

/-- No line of a text holds a line feed. -/
theorem not_mem_of_mem_lines {s l : List Char} (h : l ∈ lines s) : '\n' ∉ l := by
  induction s generalizing l with
  | nil =>
    rw [List.mem_singleton.1 h]
    exact List.not_mem_nil
  | cons c r ih =>
    by_cases hc : c = '\n'
    · subst hc
      rcases List.mem_cons.1 h with rfl | h
      · exact List.not_mem_nil
      · exact ih h
    · cases hr : lines r with
      | nil => exact absurd hr (lines_ne_nil r)
      | cons m ms =>
        have hl : lines (c :: r) = (c :: m) :: ms :=
          lines_append (l := [c]) (fun hm => hc (List.mem_singleton.1 hm).symm) hr
        rw [hl] at h
        rw [hr] at ih
        rcases List.mem_cons.1 h with rfl | h
        · intro hm
          rcases List.mem_cons.1 hm with he | hm
          · exact hc he.symm
          · exact ih List.mem_cons_self hm
        · exact ih (List.mem_cons_of_mem _ h)

/-- The lines of a text hold nothing but its characters. -/
theorem mem_of_mem_lines {s l : List Char} (hl : l ∈ lines s) {c : Char} (hc : c ∈ l) : c ∈ s := by
  rw [← unlines_lines s]
  generalize lines s = ls at hl
  cases ls with
  | nil => cases hl
  | cons m ms =>
    rw [unlines_cons, List.mem_append]
    rcases List.mem_cons.1 hl with rfl | hl
    · exact .inl hc
    · exact .inr (List.mem_flatMap.2 ⟨l, hl, List.mem_cons_of_mem _ hc⟩)

/-- The lines of two texts with a line feed between them. -/
theorem lines_append_break (s t : List Char) : lines (s ++ '\n' :: t) = lines s ++ lines t := by
  have hbreak : ∀ l ∈ lines s ++ lines t, '\n' ∉ l := by
    intro l hl
    exact (List.mem_append.1 hl).elim not_mem_of_mem_lines not_mem_of_mem_lines
  rw [← lines_unlines (List.append_ne_nil_of_left_ne_nil (lines_ne_nil s) _) hbreak,
    unlines_append (lines_ne_nil s) (lines_ne_nil t), unlines_lines, unlines_lines]

/-- A text without line feeds is a line. -/
theorem lines_eq_singleton {l : List Char} (h : '\n' ∉ l) : lines l = [l] := by
  rw [← List.append_nil l, lines_append h lines_nil]

/-- A text without carriage returns stays as it is in front of another. -/
theorem normalizeBreaks_append {s : List Char} (h : '\r' ∉ s) (t : List Char) :
    normalizeBreaks (s ++ t) = s ++ normalizeBreaks t := by
  induction s with
  | nil => rfl
  | cons c s ih =>
    have hc : c ≠ '\r' := fun e => h (e ▸ List.mem_cons_self)
    rw [List.cons_append, normalizeBreaks, ih fun e => h (List.mem_cons_of_mem c e)]
    · rfl
    · rintro r rfl
      exact absurd rfl hc

theorem mem_of_mem_normalizeBreaks {s : List Char} {c : Char} (h : c ∈ normalizeBreaks s) :
    c ∈ s := by
  induction s using normalizeBreaks.induct with
  | case1 => exact h
  | case2 r ih =>
    rcases List.mem_cons.1 h with rfl | h
    · simp
    · exact List.mem_cons_of_mem _ (List.mem_cons_of_mem _ (ih h))
  | case3 d r hd ih =>
    rw [normalizeBreaks] at h
    · rcases List.mem_cons.1 h with rfl | h
      · exact List.mem_cons_self
      · exact List.mem_cons_of_mem d (ih h)
    · exact hd

/-- **Trimming lines trims the first in front and the last at its end.** -/
theorem trim_unlines {l m : List Char} (hl : ¬ Blank l) (hm : ¬ Blank m) (ls : List (List Char)) :
    trim (unlines (l :: ls ++ [m])) = unlines (trimLeft l :: ls ++ [trimRight m]) := by
  rw [unlines_concat, unlines_concat, trim, List.append_assoc, trimLeft_append hl,
    ← List.append_assoc]
  exact trimRight_append _ hm

end Storyline.Text
