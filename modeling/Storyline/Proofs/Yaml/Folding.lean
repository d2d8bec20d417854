import Storyline.Proofs.Yaml.Escapes

/-!
# Line breaks between single quotes

A string with line or paragraph separators may be written over several lines between single quotes,
and reading joins the lines again. Only a next line, which reading takes for a plain line break,
does not come back.

## Main definitions

* `foldBreaks`: the string that is read back

## Main results

* `foldBreaks_eq_self_iff`: what comes back is the string exactly if it holds no next line
* `quoted_single`: what is written between single quotes for a string stands for what comes back
-/

namespace Storyline.Yaml

/-- The string that is read back where line breaks are written as they are. The flag says whether a
line break comes before it. -/
def foldBreaks (inside : Bool) : List Char → List Char
  | [] => []
  | c :: r =>
    if isWrittenBreak c then
      if inside || lineEnd c ≠ '\n' then lineEnd c :: foldBreaks true r
      else if r.head?.any isWrittenBreak then foldBreaks true r
      else ' ' :: foldBreaks true r
    else c :: foldBreaks false r

theorem lineEnd_cases {b : Char} (h : isWrittenBreak b = true) :
    lineEnd b = '\n' ∧ (b = '\n' ∨ b = '\u0085') ∨ lineEnd b = b := by
  rcases isWrittenBreak_cases h with rfl | rfl | rfl | rfl <;> decide

theorem not_mem_foldBreaks (s : List Char) (inside : Bool) :
    '\u0085' ∉ foldBreaks inside s := by
  induction s generalizing inside with
  | nil => simp [foldBreaks]
  | cons c s ih =>
    have hend : '\u0085' ≠ lineEnd c := by
      unfold lineEnd
      split
      · next h =>
        rintro rfl
        exact absurd h (by decide)
      · decide
    rw [foldBreaks]
    split
    · split
      · exact List.not_mem_cons_of_ne_of_not_mem hend (ih true)
      · split
        · exact ih true
        · exact List.not_mem_cons_of_ne_of_not_mem (by decide) (ih true)
    · next hbreak =>
      refine List.not_mem_cons_of_ne_of_not_mem ?_ (ih false)
      rintro rfl
      exact hbreak rfl

theorem foldBreaks_eq_self {s : List Char} (hnext : '\u0085' ∉ s) (hfeed : '\n' ∉ s)
    (inside : Bool) : foldBreaks inside s = s := by
  induction s generalizing inside with
  | nil => rfl
  | cons c s ih =>
    rw [List.mem_cons, not_or] at hnext hfeed
    have htail (inside : Bool) := ih hnext.2 hfeed.2 inside
    rw [foldBreaks]
    split
    · next hbreak =>
      rcases lineEnd_cases hbreak with ⟨-, rfl | rfl⟩ | hend
      · exact absurd rfl hfeed.1
      · exact absurd rfl hnext.1
      · rw [hend, if_pos (by simpa using .inr fun h => hfeed.1 h.symm), htail]
    · rw [htail]

/-- **What comes back is the string exactly if it holds no next line.** -/
theorem foldBreaks_eq_self_iff {s : List Char} (hfeed : '\n' ∉ s) :
    foldBreaks false s = s ↔ '\u0085' ∉ s := by
  constructor
  · intro h
    rw [← h]
    exact not_mem_foldBreaks s false
  · exact fun h => foldBreaks_eq_self h hfeed false

theorem foldBreaks_of_head {s : List Char} (h : s.head?.any isWrittenBreak = false)
    (inside : Bool) : foldBreaks inside s = foldBreaks false s := by
  cases s with
  | nil => rfl
  | cons c s =>
    have hc : isWrittenBreak c = false := h
    rw [foldBreaks, foldBreaks, hc, if_neg Bool.false_ne_true, if_neg Bool.false_ne_true]

theorem foldBreaks_spaces (n : Nat) (s : List Char) :
    foldBreaks false (List.replicate n ' ' ++ s) = List.replicate n ' ' ++ foldBreaks false s := by
  induction n with
  | zero => rfl
  | succ n ih =>
    rw [List.replicate_succ, List.cons_append, List.cons_append, foldBreaks, if_neg (by decide), ih]

theorem foldBreaks_inside {bs s : List Char} (hb : ∀ x ∈ bs, isWrittenBreak x = true)
    (h : s.head?.any isWrittenBreak = false) :
    foldBreaks true (bs ++ s) = bs.map lineEnd ++ foldBreaks false s := by
  induction bs with
  | nil => exact foldBreaks_of_head h true
  | cons b bs ih =>
    rw [List.cons_append, foldBreaks, hb b List.mem_cons_self, if_pos rfl, Bool.true_or,
      if_pos rfl, ih fun x hx => hb x (List.mem_cons_of_mem _ hx)]
    rfl

/-- The line breaks in front of a string are folded together. -/
theorem foldBreaks_run {b : Char} {bs s : List Char} (hb : ∀ x ∈ b :: bs, isWrittenBreak x = true)
    (h : s.head?.any isWrittenBreak = false) :
    foldBreaks false (b :: (bs ++ s)) =
      folded (lineEnd b) (bs.map lineEnd) ++ foldBreaks false s := by
  have hrest := foldBreaks_inside (fun x hx => hb x (List.mem_cons_of_mem _ hx)) h
  rw [foldBreaks, hb b List.mem_cons_self, if_pos rfl, hrest, Bool.false_or, folded]
  by_cases hend : lineEnd b = '\n'
  · rw [if_neg (by simpa using hend), if_neg (not_not.2 hend)]
    cases bs with
    | nil =>
      rw [List.nil_append, h]
      rfl
    | cons d bs =>
      rw [List.cons_append, List.head?_cons, Option.any_some,
        hb d (List.mem_cons_of_mem _ List.mem_cons_self)]
      rfl
  · rw [if_pos (decide_eq_true hend), if_pos hend]
    rfl

/-! ## What is written -/

theorem singleChars_spaces (indent n : Nat) (s : List Char) :
    singleChars indent (List.replicate n ' ' ++ s) =
      List.replicate n ' ' ++ singleChars indent s := by
  induction n with
  | zero => rfl
  | succ n ih =>
    rw [List.replicate_succ, List.cons_append, List.cons_append, singleChars,
      if_neg (by decide), if_neg (by simp [isWrittenBreak]), ih]

theorem singleChars_breaks (indent : Nat) {b : Char} {bs s : List Char}
    (hb : ∀ x ∈ b :: bs, isWrittenBreak x = true) (h : s.head?.any isWrittenBreak = false) :
    singleChars indent (b :: (bs ++ s)) =
      b :: (bs ++ (List.replicate indent ' ' ++ singleChars indent s)) := by
  induction bs generalizing b with
  | nil =>
    have hbreak := hb b List.mem_cons_self
    have hquote : b ≠ '\'' := by
      rintro rfl
      exact absurd hbreak (by decide)
    rw [List.nil_append, List.nil_append, singleChars, if_neg hquote, hbreak, h, if_pos (by rfl)]
    rfl
  | cons d bs ih =>
    have hbreak := hb b List.mem_cons_self
    have hbreak' := hb d (List.mem_cons_of_mem _ List.mem_cons_self)
    have hquote : b ≠ '\'' := by
      rintro rfl
      exact absurd hbreak (by decide)
    rw [List.cons_append, singleChars, if_neg hquote, List.head?_cons, Option.any_some, hbreak',
      if_neg (by rw [Bool.not_true, Bool.and_false]; exact Bool.false_ne_true),
      ih fun x hx => hb x (List.mem_cons_of_mem _ hx)]
    rfl

theorem hasPair_of_suffix {p q : Char → Bool} {s t : List Char}
    (h : hasPair p q (s ++ t) = false) : hasPair p q t = false := by
  induction s with
  | nil => exact h
  | cons c s ih =>
    refine ih ?_
    cases hst : s ++ t with
    | nil => rfl
    | cons d r =>
      rw [List.cons_append, hst, hasPair, Bool.or_eq_false_iff] at h
      exact h.2

theorem allowsSingle_of_suffix {s t : List Char} (h : allowsSingle (s ++ t) = true) :
    allowsSingle t = true := by
  rw [allowsSingle, Bool.not_eq_true', Bool.or_eq_false_iff, Bool.or_eq_false_iff] at h ⊢
  refine ⟨⟨hasPair_of_suffix h.1.1, hasPair_of_suffix h.1.2⟩, ?_⟩
  rw [List.any_append, Bool.or_eq_false_iff] at h
  exact h.2.2

/-- Right after a space stands no line break, and right after a line break no space. -/
theorem allowsSingle_pair {c d : Char} {r : List Char} (h : allowsSingle (c :: d :: r) = true) :
    (c = ' ' → isWrittenBreak d = false) ∧ (isWrittenBreak c = true → d ≠ ' ') := by
  rw [allowsSingle, Bool.not_eq_true', Bool.or_eq_false_iff, Bool.or_eq_false_iff, hasPair,
    hasPair, Bool.or_eq_false_iff, Bool.or_eq_false_iff, Bool.and_eq_false_iff,
    Bool.and_eq_false_iff] at h
  constructor
  · rintro rfl
    exact h.1.2.1.resolve_left (by decide)
  · rintro hc rfl
    rcases h.1.1.1 with h | h
    · rw [hc] at h
      cases h
    · cases h

theorem isShown_of_allowsSingle {s : List Char} (h : allowsSingle s = true) {c : Char}
    (hc : c ∈ s) : isShown c = true := by
  rw [allowsSingle, Bool.not_eq_true', Bool.or_eq_false_iff, List.any_eq_false] at h
  simpa using h.2 c hc

/-- A character that is shown is a space, a line break or no blank at all. -/
theorem isShown_cases {c : Char} (h : isShown c = true) :
    c = ' ' ∨ isWrittenBreak c = true ∨ isIndent c = false ∧ isBreak c = false := by
  have hne {d : Char} (hd : isShown d = false) : c ≠ d := by
    rintro rfl
    rw [hd] at h
    cases h
  by_cases hspace : c = ' '
  · exact .inl hspace
  · cases hbreak : isWrittenBreak c with
    | true => exact .inr (.inl rfl)
    | false =>
      refine .inr (.inr ⟨?_, ?_⟩)
      · rw [isIndent, quotedBreaks.isIndent, beq_eq_false_iff_ne.2 hspace,
          beq_eq_false_iff_ne.2 (hne (d := '\t') (by decide))]
        rfl
      · have hreturn := hne (d := '\r') (by decide)
        simp only [isWrittenBreak, Bool.or_eq_false_iff, beq_eq_false_iff_ne] at hbreak
        simp only [isBreak, Bool.or_eq_false_iff, beq_eq_false_iff_ne]
        exact ⟨⟨⟨⟨hbreak.1.1.1, hreturn⟩, hbreak.1.1.2⟩, hbreak.1.2⟩, hbreak.2⟩

theorem goesOn_singleChars {indent : Nat} {s : List Char} (hs : allowsSingle s = true)
    (hspace : s.head? ≠ some ' ') (hbreak : s.head?.any isWrittenBreak = false) :
    GoesOn (singleChars indent s) := by
  cases s with
  | nil => simp [GoesOn, singleChars]
  | cons c s =>
    have hc : isWrittenBreak c = false := hbreak
    intro x hx
    rw [singleChars, hc] at hx
    split at hx
    · cases hx
      decide
    · cases hx
      rcases isShown_cases (isShown_of_allowsSingle hs List.mem_cons_self) with rfl | h | h
      · exact absurd rfl hspace
      · rw [hc] at h
        cases h
      · exact h

/-- The line breaks that stand together in front of a string, and what follows them. -/
theorem exists_breaks (s : List Char) :
    ∃ bs t, s = bs ++ t ∧ (∀ x ∈ bs, isWrittenBreak x = true) ∧
      t.head?.any isWrittenBreak = false := by
  refine ⟨s.takeWhile isWrittenBreak, s.dropWhile isWrittenBreak,
    List.takeWhile_append_dropWhile.symm, fun x hx => List.mem_takeWhile_imp hx, ?_⟩
  cases hd : s.dropWhile isWrittenBreak with
  | nil => rfl
  | cons d t =>
    have hhead := List.head_dropWhile_not isWrittenBreak (l := s) (by rw [hd]; simp)
    simpa [hd] using hhead

/-- After spaces no line break follows. -/
theorem head?_after_spaces {n : Nat} (hn : 0 < n) {r : List Char}
    (hs : allowsSingle (List.replicate n ' ' ++ r) = true) :
    r.head?.any isWrittenBreak = false := by
  cases r with
  | nil => rfl
  | cons c r =>
    obtain ⟨n, rfl⟩ := Nat.exists_eq_add_of_lt hn
    rw [List.replicate_succ', List.append_assoc] at hs
    exact (allowsSingle_pair (allowsSingle_of_suffix hs)).1 rfl

/-- After line breaks no space follows. -/
theorem head?_after_breaks {b : Char} {bs t : List Char}
    (hb : ∀ x ∈ b :: bs, isWrittenBreak x = true) (hs : allowsSingle (b :: bs ++ t) = true) :
    t.head? ≠ some ' ' := by
  intro hhead
  obtain ⟨t, rfl⟩ := List.head?_eq_some_iff.1 hhead
  have hlast := List.dropLast_append_getLast (List.cons_ne_nil b bs)
  have hpair : allowsSingle ((b :: bs).getLast (List.cons_ne_nil b bs) :: ' ' :: t) = true := by
    refine allowsSingle_of_suffix (s := (b :: bs).dropLast) ?_
    rw [← hlast, List.append_assoc] at hs
    exact hs
  exact (allowsSingle_pair hpair).2 (hb _ (List.getLast_mem _)) rfl

/-- **What is written between single quotes for a string stands for what comes back.** -/
theorem quoted_single {s : List Char} (hs : allowsSingle s = true) {indent : Nat}
    (hindent : 0 < indent) : Quoted '\'' (singleChars indent s) (foldBreaks false s) := by
  -- Spaces and line breaks are read in runs, so the induction is on the length of the string.
  induction hlength : s.length using Nat.strong_induction_on generalizing s with
  | _ k ih =>
    obtain ⟨n, r, rfl, hr⟩ := exists_spaces s
    have hr' := allowsSingle_of_suffix hs
    rw [List.length_append, List.length_replicate] at hlength
    by_cases hn : 0 < n
    · have hgoes : GoesOn (singleChars indent r) :=
        goesOn_singleChars hr' hr (head?_after_spaces hn hs)
      rw [singleChars_spaces, foldBreaks_spaces]
      exact .blanks hn hgoes (ih r.length (by omega) hr' rfl)
    · obtain rfl : n = 0 := by omega
      rw [List.replicate_zero, List.nil_append]
      cases r with
      | nil => exact .nil
      | cons c r =>
        rcases isShown_cases (isShown_of_allowsSingle hr' List.mem_cons_self) with
          rfl | hbreak | ⟨hindent', hbreak⟩
        · exact absurd rfl hr
        · obtain ⟨bs, t, rfl, hbs, ht⟩ := exists_breaks r
          have hall : ∀ x ∈ c :: bs, isWrittenBreak x = true :=
            List.forall_mem_cons.2 ⟨hbreak, hbs⟩
          have ht' : allowsSingle t = true := allowsSingle_of_suffix (s := c :: bs) hr'
          have hgoes : GoesOn (singleChars indent t) :=
            goesOn_singleChars ht' (head?_after_breaks hall hr') ht
          rw [singleChars_breaks indent hall ht, foldBreaks_run hall ht]
          refine .breaks hall hindent hgoes (ih t.length ?_ ht' rfl)
          rw [List.length_cons, List.length_append] at hlength
          omega
        · have htail := ih r.length (by rw [List.length_cons] at hlength; omega)
            (allowsSingle_of_suffix (s := [c]) hr') rfl
          have hbreak' : isWrittenBreak c = false := by
            rw [← Bool.not_eq_true]
            intro h
            rw [isBreak_of_isWrittenBreak h] at hbreak
            cases hbreak
          rw [singleChars, foldBreaks, hbreak', if_neg Bool.false_ne_true]
          by_cases hquote : c = '\''
          · rw [if_pos hquote, hquote]
            exact .doubled rfl htail
          · rw [if_neg hquote]
            exact .char hindent' hbreak hquote (fun _ => by decide) htail

end Storyline.Yaml
