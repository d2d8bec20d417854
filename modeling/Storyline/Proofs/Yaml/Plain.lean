import Storyline.Proofs.Yaml.Folding

/-!
# Plain scalars read back

A string that can be written plain consists of words with spaces between them, and nothing in it
ends a plain scalar. What follows it ends the scalar: a colon, a mark of a collection between
brackets, the end of the text, or a line that is indented too little.

## Main definitions

* `Wordy`: the texts in which nothing ends a plain scalar
* `Halts`: what follows ends a plain scalar

## Main results

* `plainText_of_allowsPlain`: strings that can be written plain are such texts
* `plainScalar_eq`: they are read up to their end
* `halts_here`, `halts_newLine`: what ends a plain scalar
-/

namespace Storyline.Yaml

/-! ## Texts that can be written plain -/

/-- Whether nothing in a text ends a plain scalar: a space stands before another character that is
no number sign, and a colon before a character that is no separator. -/
def Wordy (flow : Bool) : List Char → Prop
  | [] => True
  | c :: r =>
    (c = ' ' ∧ (∃ d t, r = d :: t ∧ d ≠ '#') ∨
      isSeparator c = false ∧ (c = ':' → flow = false ∧ ∃ d t, r = d :: t ∧ isSeparator d = false) ∧
        (flow && [',', '?', '[', ']', '{', '}'].contains c) = false) ∧ Wordy flow r

theorem exists_of_atSeparator {r : List Char} (h : atSeparator r = false) :
    ∃ d t, r = d :: t ∧ isSeparator d = false := by
  cases r with
  | nil => cases h
  | cons d t =>
    rw [atSeparator, List.head?_cons, Option.all_some, Bool.or_eq_false_iff] at h
    exact ⟨d, t, rfl, h.2⟩

/-- What a text begins with that does not begin with a mark. A hyphen, a question mark and a colon
are none if no separator follows, of which the last two only count outside brackets. -/
theorem startsWithMark_eq_false {flow : Bool} {c : Char} {r : List Char}
    (h : startsWithMark flow (c :: r) = false) :
    c ∉ "#,[]\x7b\x7d&*!|>'\"%@`".toList ∧ (c = '?' ∨ c = ':' → flow = false) ∧
      (c = '-' ∨ c = '?' ∨ c = ':' → ∃ d t, r = d :: t ∧ isSeparator d = false) := by
  rw [startsWithMark, Bool.or_eq_false_iff, Bool.or_eq_false_iff] at h
  obtain ⟨⟨hlist, hpair⟩, hhyphen⟩ := h
  have hquestion : c = '?' ∨ c = ':' → flow = false ∧ atSeparator r = false := by
    intro hc
    have hc : (c == '?' || c == ':') = true := by rcases hc with rfl | rfl <;> decide
    rwa [hc, Bool.true_and, Bool.or_eq_false_iff] at hpair
  refine ⟨?_, fun hc => (hquestion hc).1, ?_⟩
  · rwa [← Bool.not_eq_true, List.contains_iff_mem] at hlist
  · rintro (rfl | hc)
    · exact exists_of_atSeparator (by simpa using hhyphen)
    · exact exists_of_atSeparator (hquestion hc).2

theorem wordy_of_holdsMark {bracket : Bool} {before : Char} {s : List Char}
    (h : holdsMark bracket before s = false) (hs : ∀ c ∈ s, c = ' ' ∨ isSeparator c = false)
    (hlast : s.getLast? ≠ some ' ') : Wordy bracket s := by
  induction s generalizing before with
  | nil => trivial
  | cons c s ih =>
    rw [holdsMark, Bool.or_eq_false_iff, Bool.or_eq_false_iff, Bool.or_eq_false_iff] at h
    obtain ⟨⟨⟨hmark, hcolon⟩, hhash⟩, hrest⟩ := h
    refine ⟨?_, ih hrest (fun d hd => hs d (List.mem_cons_of_mem _ hd)) ?_⟩
    · rcases hs c List.mem_cons_self with rfl | hc
      · left
        -- A space is not the last character, and the one after it begins no comment.
        cases s with
        | nil => exact absurd rfl hlast
        | cons d t =>
          refine ⟨rfl, d, t, rfl, ?_⟩
          rintro rfl
          rw [holdsMark, Bool.or_eq_false_iff, Bool.or_eq_false_iff] at hrest
          exact absurd hrest.1.2 (by decide)
      · refine .inr ⟨hc, ?_, hmark⟩
        rintro rfl
        rw [beq_self_eq_true, Bool.true_and, Bool.or_eq_false_iff] at hcolon
        exact ⟨hcolon.1, exists_of_atSeparator hcolon.2⟩
    · cases s with
      | nil => simp
      | cons d t => rwa [List.getLast?_cons_cons] at hlast

/-- What is known of a string that can be written plain and is not empty. -/
structure PlainText (flow : Bool) (s : List Char) : Prop where
  wordy : Wordy flow s
  head : ∃ c r, s = c :: r ∧ isSeparator c = false ∧ startsWithMark flow s = false
  hyphens : ['-', '-', '-'].isPrefixOf s = false
  points : ['.', '.', '.'].isPrefixOf s = false
  shown : ∀ c ∈ s, isShown c = true ∧ isWrittenBreak c = false

theorem PlainText.isInline {flow : Bool} {s : List Char} (h : PlainText flow s) {c : Char}
    (hc : c ∈ s) : isInline c = true := by
  obtain ⟨hshown, hbreak⟩ := h.shown c hc
  have hmark : c ≠ '\uFEFF' := by
    rintro rfl
    exact absurd hshown (by decide)
  rw [Yaml.isInline, beq_eq_false_iff_ne.2 hmark, Bool.or_false, Bool.not_eq_true']
  rcases isShown_cases hshown with rfl | h | h
  · rfl
  · rw [h] at hbreak
    cases hbreak
  · exact h.2

/-- Strings that can be written plain. -/
theorem plainText_of_allowsPlain {flow : Bool} {s : List Char} (h : allowsPlain flow s = true)
    (hne : s ≠ []) : PlainText flow s := by
  cases s with
  | nil => exact absurd rfl hne
  | cons c r =>
    rw [allowsPlain, Bool.not_eq_true'] at h
    simp only [Bool.or_eq_false_iff] at h
    obtain ⟨⟨⟨⟨⟨⟨hends, hsingle⟩, hshown⟩, hstart⟩, hmark⟩, hhyphens⟩, hpoints⟩ := h
    have hshown' : ∀ d ∈ c :: r, isShown d = true ∧ isWrittenBreak d = false := by
      rw [isMultiline] at hsingle
      rw [List.any_eq_false] at hshown hsingle
      exact fun d hd => ⟨by simpa using hshown d hd, by simpa using hsingle d hd⟩
    have hseparator : ∀ d ∈ c :: r, d = ' ' ∨ isSeparator d = false := by
      intro d hd
      obtain ⟨h₁, h₂⟩ := hshown' d hd
      rcases isShown_cases h₁ with rfl | h | ⟨hindent, hbreak⟩
      · exact .inl rfl
      · rw [h] at h₂
        cases h₂
      · right
        rw [isIndent, quotedBreaks.isIndent, Bool.or_eq_false_iff] at hindent
        rw [isSeparator, hbreak, hindent.1, hindent.2]
        rfl
    rw [hasBlankEnd, Bool.or_eq_false_iff, List.head?_cons, Option.any_some,
      Bool.or_eq_false_iff] at hends
    have hc : isSeparator c = false := by
      rcases hseparator c List.mem_cons_self with rfl | hc
      · exact absurd hends.1.1 (by decide)
      · exact hc
    have hlast : (c :: r).getLast? ≠ some ' ' := by
      intro hlast
      rw [hlast] at hends
      exact absurd hends.2 (by decide)
    obtain ⟨hlist, hflow, hnext⟩ := startsWithMark_eq_false hstart
    refine ⟨⟨.inr ⟨hc, ?_, ?_⟩, ?_⟩, ⟨c, r, rfl, hc, hstart⟩, hhyphens, hpoints, hshown'⟩
    · exact fun hcolon => ⟨hflow (.inr hcolon), hnext (.inr (.inr hcolon))⟩
    · -- Between brackets a question mark is a mark wherever it stands, and so are the others.
      cases flow with
      | false => rfl
      | true =>
        rw [Bool.true_and, ← Bool.not_eq_true, List.contains_iff_mem]
        intro hmem
        have hall : [',', '?', '[', ']', '{', '}'].all
            (fun d => d == '?' || "#,[]\x7b\x7d&*!|>'\"%@`".toList.contains d) = true := by decide
        have hcase := List.all_eq_true.1 hall c hmem
        rw [Bool.or_eq_true, beq_iff_eq, List.contains_iff_mem] at hcase
        exact hcase.elim (fun hc => absurd (hflow (.inl hc)) (by decide)) hlist
    · refine wordy_of_holdsMark hmark (fun d hd => hseparator d (List.mem_cons_of_mem _ hd)) ?_
      cases r with
      | nil => simp
      | cons d t => rwa [List.getLast?_cons_cons] at hlast

theorem Wordy.of_suffix {flow : Bool} {s t : List Char} (h : Wordy flow (s ++ t)) :
    Wordy flow t := by
  induction s with
  | nil => exact h
  | cons c s ih => exact ih h.2

/-! ## Words -/

/-- No character of a word ends a plain scalar. -/
theorem endsPlain_of_wordy {flow : Bool} {c : Char} {r rest : List Char} (h : Wordy flow (c :: r))
    (hc : c ≠ ' ') : endsPlain flow (c :: (r ++ rest)) = false := by
  rcases h.1 with ⟨rfl, -⟩ | ⟨hseparator, hcolon, hflow⟩
  · exact absurd rfl hc
  · rw [endsPlain, hseparator, hflow, Bool.false_or, Bool.or_false, Bool.and_eq_false_iff]
    by_cases hc' : c = ':'
    · right
      obtain ⟨rfl, d, t, rfl, hd⟩ := hcolon hc'
      rw [List.cons_append, List.head?_cons, Option.all_some, hd]
      rfl
    · exact .inl (beq_eq_false_iff_ne.2 hc')

theorem plainLength_word {flow : Bool} {w s rest : List Char} (h : Wordy flow (w ++ s))
    (hw : ∀ c ∈ w, c ≠ ' ') (hends : endsPlain flow (s ++ rest) = true) :
    plainLength flow (w ++ (s ++ rest)) = w.length := by
  induction w with
  | nil =>
    rw [List.nil_append, List.length_nil]
    cases hr : s ++ rest with
    | nil => rfl
    | cons c r => rw [plainLength, ← hr, if_pos hends]
  | cons c w ih =>
    have hword : endsPlain flow (c :: (w ++ s ++ rest)) = false :=
      endsPlain_of_wordy h (hw c List.mem_cons_self)
    rw [List.append_assoc] at hword
    rw [List.cons_append, plainLength, if_neg (by rw [hword]; exact Bool.false_ne_true),
      ih h.2 fun d hd => hw d (List.mem_cons_of_mem _ hd), List.length_cons]

/-- Whether a plain scalar ends where its last word does; the flag says whether a line has ended,
and `d` is the place after it. -/
def Halts (flow : Bool) (indent : Int) (c : Cursor) (ended : Bool) (d : Cursor) : Prop :=
  plainSpaces c = (none, ended, d) ∨
    ∃ next, plainSpaces c = (some next, ended, d) ∧
      (d.peek == some '#' || (!flow && d.column < indent)) = true

theorem plainSpaces_spaces {c : Cursor} {n : Nat} {r : List Char}
    (h : c.rest = List.replicate n ' ' ++ r) (hn : 0 < n)
    (hr : ∀ x ∈ r.head?, x ≠ ' ' ∧ isBreak x = false) :
    plainSpaces c = (some (List.replicate n ' '), false, c.steps n) := by
  have hspan := Cursor.span_append (p := (· == ' ')) h
    (fun x hx => by rw [List.eq_of_mem_replicate hx]; rfl)
    fun x hx => beq_eq_false_iff_ne.2 (hr x hx).1
  have hrest := Cursor.rest_steps_append h
  rw [List.length_replicate] at hspan hrest
  obtain ⟨n, rfl⟩ := Nat.exists_eq_add_of_lt hn
  rw [plainSpaces, hspan]
  dsimp only
  rw [Cursor.lineBreak?_eq_none (by rw [hrest]; exact fun x hx => (hr x hx).2)]
  rfl

/-- A cursor at a word of a plain scalar, which is the next one that is read. -/
structure AtWord (flow : Bool) (c : Cursor) (w : List Char) : Prop where
  ne_nil : w ≠ []
  count : (if c.peek == some '#' then 0 else plainLength flow c.rest) = w.length
  take : c.rest.take w.length = w

theorem atWord_of_wordy {flow : Bool} {w t rest : List Char} (hs : Wordy flow (w ++ t))
    (hw : ∀ x ∈ w, x ≠ ' ') (hhead : ∃ x r, w = x :: r ∧ x ≠ '#') (ht : ∀ x ∈ t.head?, x = ' ')
    (hends : endsPlain flow rest = true) {c : Cursor} (hc : c.rest = w ++ (t ++ rest)) :
    AtWord flow c w := by
  have hendsWord : endsPlain flow (t ++ rest) = true := by
    cases t with
    | nil => exact hends
    | cons x t =>
      rw [ht x rfl]
      rfl
  have hpeek : (c.peek == some '#') = false := by
    obtain ⟨x, r, rfl, hhash⟩ := hhead
    rw [Cursor.peek, hc]
    simpa using hhash
  refine ⟨?_, ?_, by rw [hc, List.take_left]⟩
  · rintro rfl
    obtain ⟨x, r, hx, -⟩ := hhead
    cases hx
  · rw [hpeek, if_neg Bool.false_ne_true, hc, plainLength_word hs hw hendsWord]

/-- A word after which the scalar ends is the last one. -/
theorem plainWords_last {flow : Bool} {indent : Int} {c d : Cursor} {w : List Char}
    (h : AtWord flow c w) {ended : Bool} (hhalts : Halts flow indent (c.steps w.length) ended d)
    (fuel : Nat) (spaces : List Char) (before : Bool) :
    plainWords flow indent (fuel + 1) spaces before c = ⟨spaces ++ w, ended, d⟩ := by
  rw [plainWords]
  dsimp only
  rw [h.count, if_neg (by simpa using h.ne_nil), h.take]
  rcases hhalts with hspaces | ⟨next, hspaces, hhalt⟩
  · rw [hspaces]
  · rw [hspaces]
    dsimp only
    rw [if_pos hhalt]

/-- After any other word the scalar goes on behind the spaces. -/
theorem plainWords_next {flow : Bool} {indent : Int} {c d : Cursor} {w next : List Char}
    (h : AtWord flow c w) (hspaces : plainSpaces (c.steps w.length) = (some next, false, d))
    (hgoes : ¬(d.peek == some '#' || (!flow && d.column < indent)) = true)
    (fuel : Nat) (spaces : List Char) (before : Bool) :
    plainWords flow indent (fuel + 1) spaces before c =
      { plainWords flow indent fuel next false d with
        text := spaces ++ w ++ (plainWords flow indent fuel next false d).text } := by
  rw [plainWords]
  dsimp only
  rw [h.count, if_neg (by simpa using h.ne_nil), h.take, hspaces]
  dsimp only
  rw [if_neg hgoes]

/-- The first word of a text, and the spaces between it and the next one. -/
theorem exists_word {s : List Char} (hhead : ∃ x r, s = x :: r ∧ x ≠ ' ' ∧ x ≠ '#') :
    ∃ w n r, s = w ++ (List.replicate n ' ' ++ r) ∧ (∀ x ∈ w, x ≠ ' ') ∧
      (∃ x r, w = x :: r ∧ x ≠ '#') ∧ r.head? ≠ some ' ' ∧ (n = 0 → r = []) := by
  obtain ⟨x, r, rfl, hspace, hhash⟩ := hhead
  obtain ⟨n, t, ht, hhead⟩ := exists_spaces (r.dropWhile (· ≠ ' '))
  refine ⟨x :: r.takeWhile (· ≠ ' '), n, t, ?_, ?_, ⟨x, _, rfl, hhash⟩, hhead, ?_⟩
  · rw [List.cons_append, ← ht, List.takeWhile_append_dropWhile]
  · refine List.forall_mem_cons.2 ⟨hspace, fun y hy => ?_⟩
    simpa using List.mem_takeWhile_imp hy
  · rintro rfl
    rw [List.replicate_zero, List.nil_append] at ht
    cases t with
    | nil => rfl
    | cons y t =>
      have hy := List.head?_dropWhile_not (· ≠ ' ') r
      rw [ht] at hy
      have hy : y = ' ' := by simpa using hy
      exact absurd (congrArg some hy) hhead

/-- Between two words on a line a plain scalar goes on behind the spaces. -/
theorem plainSpaces_between {flow : Bool} {indent : Int} {c : Cursor} {w r : List Char} {n : Nat}
    {x : Char} (hc : c.rest = w ++ (List.replicate n ' ' ++ x :: r)) (hn : 0 < n)
    (hinline : ∀ y ∈ w, isInline y = true) (hspace : x ≠ ' ') (hhash : x ≠ '#')
    (hbreak : isBreak x = false) (hcolumn : flow = true ∨ indent ≤ c.column + 1) :
    ∃ d, d = c.steps (w.length + n) ∧ d.rest = x :: r ∧
      (flow = true ∨ indent ≤ d.column + 1) ∧
      plainSpaces (c.steps w.length) = (some (List.replicate n ' '), false, d) ∧
      ¬(d.peek == some '#' || (!flow && d.column < indent)) = true := by
  have hspaces := plainSpaces_spaces (Cursor.rest_steps_append hc) hn fun y hy => by
    cases hy
    exact ⟨hspace, hbreak⟩
  rw [← Cursor.steps_add] at hspaces
  have hplace : c.steps (w.length + n) = c.along (w.length + n) (x :: r) := by
    have halong := Cursor.steps_along (c := c) (w := w ++ List.replicate n ' ') (r := x :: r)
      (by rw [hc, List.append_assoc]) (List.forall_mem_append.2 ⟨hinline, fun y hy => by
        rw [List.eq_of_mem_replicate hy]
        rfl⟩)
    rwa [List.length_append, List.length_replicate] at halong
  -- On the same line the column only grows, so the line is still indented enough.
  have hright : indent ≤ c.column + 1 → indent ≤ (c.along (w.length + n) (x :: r)).column := by
    intro h
    rw [Cursor.along]
    push_cast
    omega
  rw [hplace] at hspaces
  refine ⟨_, hplace.symm, rfl, hcolumn.imp_right fun h => (hright h).trans (by omega), hspaces, ?_⟩
  rw [Bool.or_eq_true, Bool.and_eq_true, decide_eq_true_eq]
  rintro (h | ⟨hflow, hlt⟩)
  · exact hhash (Option.some.inj (beq_iff_eq.1 h))
  · rcases hcolumn with h | h
    · rw [h] at hflow
      cases hflow
    · exact absurd hlt (not_lt.2 (hright h))

/-- The words of a text that can be written plain are read up to its end. -/
theorem plainWords_eq {flow : Bool} {indent : Int} {s rest : List Char} (hs : Wordy flow s)
    (hshown : ∀ x ∈ s, x = ' ' ∨ isBreak x = false) (hinline : ∀ x ∈ s, isInline x = true)
    (hhead : ∃ x r, s = x :: r ∧ x ≠ ' ' ∧ x ≠ '#') (hends : endsPlain flow rest = true)
    {c d : Cursor} (hc : c.rest = s ++ rest) (hcolumn : flow = true ∨ indent ≤ c.column + 1)
    {ended : Bool} (hhalts : Halts flow indent (c.steps s.length) ended d) {fuel : Nat}
    (hfuel : s.length < fuel) (spaces : List Char) (before : Bool) :
    plainWords flow indent fuel spaces before c = ⟨spaces ++ s, ended, d⟩ := by
  -- Every word takes characters, so the induction is on the length of what is left.
  induction hlength : s.length using Nat.strong_induction_on
    generalizing s c fuel spaces before with
  | _ k ih =>
    obtain ⟨fuel, rfl⟩ := Nat.exists_eq_add_of_lt hfuel
    obtain ⟨w, n, r, rfl, hw, hfirst, hr, hlast⟩ := exists_word hhead
    have hrest : c.rest = w ++ (List.replicate n ' ' ++ r ++ rest) := by
      rw [hc, List.append_assoc]
    have hspace : ∀ x ∈ (List.replicate n ' ' ++ r).head?, x = ' ' := by
      intro x hx
      cases n with
      | zero =>
        rw [hlast rfl] at hx
        cases hx
      | succ n =>
        cases hx
        rfl
    have hword : AtWord flow c w := atWord_of_wordy hs hw hfirst hspace hends hrest
    have hpositive := List.length_pos_of_ne_nil hword.ne_nil
    rcases Nat.eq_zero_or_pos n with rfl | hn
    · obtain rfl : r = [] := hlast rfl
      rw [List.replicate_zero, List.append_nil, List.append_nil] at hhalts ⊢
      exact plainWords_last hword hhalts _ spaces before
    · -- A space of the text stands before another character, which begins the next word.
      obtain ⟨x, r', rfl, hx⟩ : ∃ x r', r = x :: r' ∧ x ≠ '#' := by
        obtain ⟨n, rfl⟩ := Nat.exists_eq_add_of_lt hn
        rw [List.replicate_succ', List.append_assoc, ← List.append_assoc] at hs
        rcases hs.of_suffix.1 with ⟨-, h⟩ | ⟨h, -⟩
        · exact h
        · exact absurd h (by decide)
      have hx' : x ≠ ' ' := fun h => hr (congrArg some h)
      have hbreak : isBreak x = false := (hshown x (by simp)).resolve_left hx'
      have hsub {y : Char} (hy : y ∈ x :: r') : y ∈ w ++ (List.replicate n ' ' ++ x :: r') :=
        List.mem_append_right _ (List.mem_append_right _ hy)
      rw [List.append_assoc] at hrest
      obtain ⟨d', hplace, hrest', hcolumn', hspaces, hgoes⟩ := plainSpaces_between hrest hn
        (fun y hy => hinline y (List.mem_append_left _ hy)) hx' hx hbreak hcolumn
      have hshort : (x :: r').length < (w ++ (List.replicate n ' ' ++ x :: r')).length := by
        simp only [List.length_append]
        omega
      rw [plainWords_next hword hspaces hgoes, ih (x :: r').length (hlength ▸ hshort)
        hs.of_suffix.of_suffix (fun y hy => hshown y (hsub hy)) (fun y hy => hinline y (hsub hy))
        ⟨x, r', rfl, hx', hx⟩ hrest' hcolumn' ?_ (Nat.lt_add_right _ hshort) _ _ rfl]
      · rw [List.append_assoc]
      · rw [List.length_append, List.length_append, List.length_replicate] at hhalts
        rwa [hplace, ← Cursor.steps_add, Nat.add_assoc]

/-- **A string that can be written plain is read up to its end** if what follows ends it. -/
theorem plainScalar_eq {flow : Bool} {indent : Int} {s rest : List Char} (hs : PlainText flow s)
    (hends : endsPlain flow rest = true) {c d : Cursor} (hc : c.rest = s ++ rest)
    (hcolumn : flow = true ∨ indent ≤ c.column + 1) {ended : Bool}
    (hhalts : Halts flow indent (c.steps s.length) ended d) :
    plainScalar flow indent c = ⟨s, ended, d⟩ := by
  obtain ⟨x, r, rfl, hx, hmark⟩ := hs.head
  have hx' : x ≠ ' ' ∧ x ≠ '#' := by
    constructor
    · rintro rfl
      exact absurd hx (by decide)
    · rintro rfl
      exact absurd hmark (by simp [startsWithMark])
  refine plainWords_eq hs.wordy (fun y hy => ?_) (fun y hy => hs.isInline hy)
    ⟨x, r, rfl, hx'⟩ hends hc hcolumn hhalts ?_ [] false
  · exact .inr (isInline_eq_true (hs.isInline hy)).1
  · rw [hc, List.length_append]
    omega

/-! ## What ends a plain scalar -/

/-- What is neither a blank nor a line break ends a plain scalar at once. -/
theorem halts_here (flow : Bool) (indent : Int) {c : Cursor}
    (h : ∀ x ∈ c.rest.head?, x ≠ ' ' ∧ isBreak x = false) : Halts flow indent c false c := by
  left
  rw [plainSpaces, Cursor.span_append (w := []) (r := c.rest) rfl (by simp)
    fun x hx => beq_eq_false_iff_ne.2 (h x hx).1]
  dsimp only
  rw [List.length_nil, Cursor.steps, Cursor.lineBreak?_eq_none fun x hx => (h x hx).2]
  rfl

/-- A line that is indented too little ends a plain scalar. -/
theorem halts_newLine {indent : Int} {c : Cursor} {n : Nat} {r : List Char}
    (h : c.rest = '\n' :: (List.replicate n ' ' ++ r)) (hn : n < indent)
    (hr : ∀ x ∈ r.head?, x ≠ ' ' ∧ isBreak x = false)
    (hmark : atDocumentMark c.step = false) :
    Halts false indent c true (c.step.steps n) := by
  have hstep : c.step.rest = List.replicate n ' ' ++ r := by
    rw [Cursor.rest_step, h]
    rfl
  have hskip : c.step.skip (· == ' ') = c.step.steps n := by
    have hskip := Cursor.skip_append (p := (· == ' ')) hstep
      (fun x hx => by rw [List.eq_of_mem_replicate hx]; rfl)
      fun x hx => beq_eq_false_iff_ne.2 (hr x hx).1
    rwa [List.length_replicate] at hskip
  have hrest : (c.step.steps n).rest = r := by
    have hrest := Cursor.rest_steps_append hstep
    rwa [List.length_replicate] at hrest
  right
  -- The line break counts as a space, but the line behind it is indented too little.
  refine ⟨[' '], ?_, ?_⟩
  · rw [plainSpaces, Cursor.span_append (w := []) (r := c.rest) rfl (by simp)
      (by rw [h]; exact fun x hx => by cases hx; decide)]
    dsimp only
    rw [List.length_nil, Cursor.steps, Cursor.lineBreak?_lineFeed h]
    dsimp only
    rw [hmark, if_neg Bool.false_ne_true, plainBreaks]
    dsimp only
    rw [hskip, Cursor.lineBreak?_eq_none (by rw [hrest]; exact fun x hx => (hr x hx).2)]
    rfl
  · rw [Cursor.steps_newLine h]
    simpa using .inr hn

end Storyline.Yaml
