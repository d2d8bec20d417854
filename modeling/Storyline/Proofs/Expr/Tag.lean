import Mathlib
import Storyline.Expr.Template
import Storyline.Proofs.Text.Lines

/-!
# Tags in a text

What the readers of a template find in a text that holds tags. In text without opening braces, and
at the name of a variable between braces, they find nothing that begins or ends a block, so they
pass over both; at a tag they find the tag.

## Main definitions

* `tag`, `placeholder`: words, and the name of a variable, between braces
* `OpensWithBraces`: a reader that finds only what begins with two braces
* `Silent`: a text in which a reader finds nothing

## Main results

* `silent_of_notMem`, `silent_placeholder`: what is passed over
* `untilEnd?_append`, `branches?_append`, `fillBlocks_append`, `fillNames_append`: passing over it
* `conditionAndBranches?_append`: a condition ends at the first closing braces
-/

namespace Storyline.Expr

open Text

/-! ## Characters -/

theorem toNat_lt_of_isWord {c : Char} (h : isWord c = true) : c.toNat < 123 := by
  simp only [isWord, Char.isAlphanum, Char.isAlpha, Char.isUpper, Char.isLower, Char.isDigit,
    Bool.or_eq_true, Bool.and_eq_true, decide_eq_true_eq, beq_iff_eq, ge_iff_le,
    UInt32.le_iff_toNat_le] at h
  rcases h with ((h | h) | h) | rfl
  · exact Nat.lt_of_le_of_lt h.2 (by decide)
  · exact Nat.lt_of_le_of_lt h.2 (by decide)
  · exact Nat.lt_of_le_of_lt h.2 (by decide)
  · decide

/-- What holds of the characters of identifiers, seen by trying them. -/
theorem of_isWord {p : Char → Bool}
    (hp : ∀ n < 123, isWord (Char.ofNat n) = true → p (Char.ofNat n) = true) {c : Char}
    (h : isWord c = true) : p c = true := by
  have hc := hp c.toNat (toNat_lt_of_isWord h)
  rw [Char.ofNat_toNat] at hc
  exact hc h

theorem isBlank_of_isWord {c : Char} (h : isWord c = true) : isBlank c = false := by
  simpa using of_isWord (p := fun c => !isBlank c) (by decide) h

/-- Among the characters of identifiers only the two cases of a letter are the same. -/
theorem toLower_of_sameLetter {p c : Char} (hc : isWord c = true) (h : sameLetter p c = true) :
    c.toLower = p := by
  -- The letters outside ASCII that fold to one inside it are no characters of identifiers.
  have hascii : (c == 'ı' || c == 'İ' || c == 'ſ') = false := by
    simpa using of_isWord (p := fun c => !(c == 'ı' || c == 'İ' || c == 'ſ')) (by decide) hc
  simp only [Bool.or_eq_false_iff] at hascii
  simpa [sameLetter, hascii] using h

theorem trimLeft_of_head {s : List Char} (h : ∀ c ∈ s.head?, isBlank c = false) :
    trimLeft s = s := by
  cases s with
  | nil => rfl
  | cons c r => exact List.dropWhile_cons_of_neg (by simp [h c rfl])

/-! ## Tags -/

/-- Words between braces, with a space on either side. -/
def tag (words : List Char) : List Char :=
  '{' :: '{' :: ' ' :: words ++ [' ', '}', '}']

/-- The name of a variable between braces. -/
def placeholder (name : List Char) : List Char :=
  '{' :: '{' :: name ++ ['}', '}']

theorem afterTag?_else (rest : List Char) :
    afterTag? "else" (tag "else".toList ++ rest) = some rest := rfl

theorem placeholder_append (name rest : List Char) :
    placeholder name ++ rest = '{' :: '{' :: (name ++ '}' :: '}' :: rest) := by
  simp [placeholder]

/-- What is read of a name as a word is a beginning of the name. -/
theorem exists_of_afterWord? {word name rest t : List Char} (hword : '}' ∉ word)
    (hname : ∀ c ∈ name, isWord c = true) (h : afterWord? word (name ++ '}' :: rest) = some t) :
    ∃ u v, name = u ++ v ∧ u.map Char.toLower = word ∧ t = v ++ '}' :: rest := by
  induction word generalizing name with
  | nil =>
    cases h
    exact ⟨[], name, rfl, rfl, rfl⟩
  | cons p word ih =>
    rw [List.mem_cons, not_or] at hword
    cases name with
    | nil =>
      -- The name has ended, and no letter of the word is a brace.
      have hbrace : sameLetter p '}' = false := by
        simpa [sameLetter] using hword.1
      rw [List.nil_append, afterWord?, hbrace] at h
      cases h
    | cons c name =>
      rw [List.forall_mem_cons] at hname
      rw [List.cons_append, afterWord?] at h
      split at h
      · next hsame =>
        obtain ⟨u, v, rfl, hlower, rfl⟩ := ih hword.2 hname.2 h
        refine ⟨c :: u, v, rfl, ?_, rfl⟩
        rw [List.map_cons, toLower_of_sameLetter hname.1 hsame, hlower]
      · cases h

theorem trimLeft_name {name : List Char} (h : ∀ c ∈ name, isWord c = true) (rest : List Char) :
    trimLeft (name ++ '}' :: rest) = name ++ '}' :: rest := by
  refine trimLeft_of_head fun c hc => ?_
  cases name with
  | nil =>
    cases hc
    decide
  | cons d name =>
    cases hc
    exact isBlank_of_isWord (h c List.mem_cons_self)

/-- The name of a variable is a tag only if it is the word of the tag. -/
theorem eq_of_afterTag?_placeholder {word : String} {name rest t : List Char}
    (hword : '}' ∉ word.toList) (hname : ∀ c ∈ name, isWord c = true)
    (h : afterTag? word (placeholder name ++ rest) = some t) :
    name.map Char.toLower = word.toList := by
  rw [placeholder_append] at h
  obtain ⟨u, hu, h⟩ := Option.bind_eq_some_iff.1 h
  rw [trimLeft_name hname] at hu
  obtain ⟨begun, left, rfl, hlower, rfl⟩ := exists_of_afterWord? hword hname hu
  rw [trimLeft_name fun c hc => hname c (List.mem_append_right _ hc)] at h
  -- Whatever is left of the name stands in the way of the closing braces.
  cases left with
  | nil => rw [List.append_nil, hlower]
  | cons c left =>
    have hc : c ≠ '}' := by
      rintro rfl
      exact absurd (hname '}' (by simp)) (by decide)
    simp [afterClose?, hc] at h

theorem afterTag?_placeholder_else {name : List Char} (hname : ∀ c ∈ name, isWord c = true)
    (helse : name.map Char.toLower ≠ "else".toList) (rest : List Char) :
    afterTag? "else" (placeholder name ++ rest) = none :=
  Option.eq_none_iff_forall_ne_some.2 fun _ h =>
    helse (eq_of_afterTag?_placeholder (by decide) hname h)

theorem afterTag?_placeholder_end {name : List Char} (hname : ∀ c ∈ name, isWord c = true)
    (rest : List Char) : afterTag? "/if" (placeholder name ++ rest) = none := by
  refine Option.eq_none_iff_forall_ne_some.2 fun _ h => ?_
  have hlower := eq_of_afterTag?_placeholder (by decide) hname h
  cases name with
  | nil => exact absurd hlower (by decide)
  | cons c name =>
    have hc : c.toLower = '/' := (List.cons.inj hlower).1
    have hslash : (c.toLower != '/') = true :=
      of_isWord (p := fun c => c.toLower != '/') (by decide) (hname c List.mem_cons_self)
    simp [hc] at hslash

/-- No block begins at the name of a variable. -/
theorem block?_placeholder {name : List Char} (hname : ∀ c ∈ name, isWord c = true)
    (rest : List Char) : block? (placeholder name ++ rest) = none := by
  refine Option.eq_none_iff_forall_ne_some.2 fun b h => ?_
  rw [placeholder_append] at h
  obtain ⟨u, hu, h⟩ := Option.bind_eq_some_iff.1 h
  rw [trimLeft_name hname] at hu
  obtain ⟨begun, left, rfl, -, rfl⟩ := exists_of_afterWord? (by decide) hname hu
  have hleft : ∀ c ∈ left, isWord c = true := fun c hc => hname c (List.mem_append_right _ hc)
  cases left with
  | nil => simp [afterBlanks?, isBlank, isAsciiBlank] at h
  | cons c left =>
    simp [afterBlanks?, isBlank_of_isWord (hleft c List.mem_cons_self)] at h

/-- A placeholder is read as its name. -/
theorem name?_placeholder {name : List Char} (hne : name ≠ [])
    (hname : ∀ c ∈ name, isWord c = true) (rest : List Char) :
    name? (placeholder name ++ rest) = some (name, rest) := by
  rw [placeholder_append, name?]
  have htake : (name ++ '}' :: '}' :: rest).takeWhile isWord = name := by
    rw [List.takeWhile_append_of_pos hname]
    simp [show isWord '}' = false by decide]
  have hdrop : (name ++ '}' :: '}' :: rest).dropWhile isWord = '}' :: '}' :: rest := by
    rw [List.dropWhile_append_of_pos hname]
    simp [show isWord '}' = false by decide]
  rw [htake, hdrop]
  obtain ⟨c, r, rfl⟩ := List.exists_cons_of_ne_nil hne
  rfl

/-! ## Passing over text -/

section Silent

variable {α : Type} {f : List Char → Option α} {s t rest : List Char}

/-- Whether a reader finds only what begins with two braces. -/
def OpensWithBraces (f : List Char → Option α) : Prop :=
  ∀ s a, f s = some a → ∃ r, s = '{' :: '{' :: r

/-- Whether a reader finds nothing at any place of a text that `rest` follows. -/
def Silent (f : List Char → Option α) : List Char → List Char → Prop
  | [], _ => True
  | c :: s, rest => f (c :: s ++ rest) = none ∧ Silent f s rest

theorem silent_append : Silent f (s ++ t) rest ↔ Silent f s (t ++ rest) ∧ Silent f t rest := by
  induction s with
  | nil => exact (true_and _).symm ▸ Iff.rfl
  | cons c s ih =>
    rw [List.cons_append, Silent, Silent, ih, and_assoc, ← List.cons_append, List.append_assoc]

/-- Text without opening braces is passed over. -/
theorem silent_of_notMem (hf : OpensWithBraces f) (h : '{' ∉ s) (rest : List Char) :
    Silent f s rest := by
  induction s with
  | nil => trivial
  | cons c s ih =>
    rw [List.mem_cons, not_or] at h
    refine ⟨Option.eq_none_iff_forall_ne_some.2 fun a ha => ?_, ih h.2⟩
    obtain ⟨r, hr⟩ := hf _ a ha
    exact h.1 (List.cons.inj hr).1.symm

/-- A placeholder at which a reader finds nothing is passed over. -/
theorem silent_placeholder {name : List Char} (hf : OpensWithBraces f)
    (hname : ∀ c ∈ name, isWord c = true) (h : f (placeholder name ++ rest) = none) :
    Silent f (placeholder name) rest := by
  have hplain : '{' ∉ name ++ ['}', '}'] := by
    intro hmem
    rcases List.mem_append.1 hmem with hmem | hmem
    · exact absurd (hname '{' hmem) (by decide)
    · exact absurd hmem (by decide)
  -- After the first brace there are no two braces that open.
  refine ⟨h, Option.eq_none_iff_forall_ne_some.2 fun a ha => ?_, silent_of_notMem hf hplain rest⟩
  obtain ⟨r, hr⟩ := hf _ a ha
  have hr' : name ++ ['}', '}'] ++ rest = '{' :: r := (List.cons.inj hr).2
  have hopen : (name ++ ['}', '}'] ++ rest).head? = some '{' := by
    rw [hr']
    rfl
  cases name with
  | nil => exact absurd hopen (by simp)
  | cons c name => exact hplain (by simpa using .inl (Option.some.inj hopen).symm)

end Silent

theorem opensWithBraces_afterTag? (word : String) : OpensWithBraces (afterTag? word) := by
  intro s t h
  unfold afterTag? at h
  split at h
  · exact ⟨_, rfl⟩
  · cases h

theorem opensWithBraces_block? : OpensWithBraces block? := by
  intro s b h
  unfold block? at h
  split at h
  · exact ⟨_, rfl⟩
  · cases h

theorem opensWithBraces_name? : OpensWithBraces name? := by
  intro s p h
  unfold name? at h
  split at h
  · exact ⟨_, rfl⟩
  · cases h

theorem untilEnd?_append {s rest : List Char} (h : Silent (afterTag? "/if") s rest) :
    untilEnd? (s ++ rest) = (untilEnd? rest).map fun p => (s ++ p.1, p.2) := by
  induction s with
  | nil => simp
  | cons c s ih =>
    rw [Silent, List.cons_append] at h
    rw [List.cons_append, untilEnd?, h.1]
    simp [ih h.2, Function.comp_def]

theorem branches?_append {s rest : List Char} (helse : Silent (afterTag? "else") s rest)
    (hend : Silent (afterTag? "/if") s rest) :
    branches? (s ++ rest) = (branches? rest).map fun b => { b with yes := s ++ b.yes } := by
  induction s with
  | nil => simp
  | cons c s ih =>
    rw [Silent, List.cons_append] at helse hend
    rw [List.cons_append, branches?, helse.1, hend.1]
    simp [ih helse.2 hend.2, Function.comp_def]

theorem fillBlocks_append {s rest : List Char} (h : Silent block? s rest) (state : State) :
    (fillBlocks state (s ++ rest)).result = (fillBlocks state rest).result.map (s ++ ·) := by
  induction s with
  | nil => cases hr : (fillBlocks state rest).result <;> simp [hr, Except.map]
  | cons c s ih =>
    rw [Silent, List.cons_append] at h
    rw [List.cons_append, fillBlocks]
    split
    · next b hb =>
      rw [h.1] at hb
      cases hb
    · have hs := ih h.2
      cases hr : (fillBlocks state rest).result with
      | error f =>
        rw [hr] at hs
        exact Logged.result_bind_error hs _
      | ok r =>
        rw [hr] at hs
        exact Logged.result_bind_ok hs _

theorem fillNames_append {s rest : List Char} (h : Silent name? s rest) (state : State) :
    fillNames state (s ++ rest) = (fillNames state rest).map (s ++ ·) := by
  induction s with
  | nil => cases hr : fillNames state rest <;> simp [hr, Except.map]
  | cons c s ih =>
    rw [Silent, List.cons_append] at h
    rw [List.cons_append, fillNames]
    split
    · next name r hn =>
      rw [h.1] at hn
      cases hn
    · rw [ih h.2]
      cases fillNames state rest <;> rfl

/-! ## Conditions -/

/-- After a single space the condition begins. -/
theorem afterBlanks?_space {s : List Char} (h : ∀ c ∈ s.head?, isBlank c = false) :
    afterBlanks? (' ' :: s) = conditionAndBranches? [] s := by
  -- More blanks are tried first, and there are none.
  have hnone : afterBlanks? s = none := by
    cases s with
    | nil => rfl
    | cons c r => rw [afterBlanks?, h c rfl, if_neg Bool.false_ne_true]
  rw [afterBlanks?, hnone]
  rfl

/-- A condition that does not end in a blank ends at the first closing braces after it. -/
theorem conditionAndBranches?_append {s body : List Char} {b : Branches} (hne : s ≠ [])
    (hbrace : '}' ∉ s) (hline : '\n' ∉ s)
    (hlast : ∀ c ∈ s.getLast?, isBlank c = false) (hb : branches? body = some b)
    (before : List Char) :
    conditionAndBranches? before (s ++ ' ' :: '}' :: '}' :: body) =
      some ⟨before.reverse ++ s, b.yes, b.no, b.rest⟩ := by
  induction s generalizing before with
  | nil => exact absurd rfl hne
  | cons c s ih =>
    rw [List.mem_cons, not_or] at hbrace hline
    rw [List.cons_append, conditionAndBranches?, if_neg (Ne.symm hline.1)]
    by_cases hs : s = []
    · subst hs
      have hclose : (afterClose? (trimLeft ([] ++ ' ' :: '}' :: '}' :: body))).bind branches? =
          some b := hb
      rw [hclose]
      simp
    · -- The next character that is not blank belongs to the condition.
      have hlast' : ∀ c ∈ s.getLast?, isBlank c = false := by
        rwa [List.getLast?_cons_of_ne_nil hs] at hlast
      have hnot : ¬ Blank s := by
        intro hblank
        have hend := hblank _ (List.getLast_mem hs)
        rw [hlast' _ (List.getLast?_eq_some_getLast hs)] at hend
        cases hend
      obtain ⟨d, r, hr⟩ := List.exists_cons_of_ne_nil fun he => hnot (trimLeft_eq_nil_iff.1 he)
      have hd : d ≠ '}' := by
        rintro rfl
        exact hbrace.2 (mem_of_mem_trimLeft (by rw [hr]; exact List.mem_cons_self))
      have hopen : (afterClose? (trimLeft (s ++ ' ' :: '}' :: '}' :: body))).bind branches? =
          none := by
        rw [trimLeft_append hnot, hr]
        simp [afterClose?, hd]
      rw [hopen]
      simpa using ih hs hbrace.2 hline.2 hlast' (c :: before)

end Storyline.Expr
