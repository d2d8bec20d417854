import Storyline.Proofs.Yaml.Cursor
import Storyline.Yaml.Text
import Storyline.Yaml.Token.Scalar

/-!
# Scalars between quotes

What is read between quotes, one piece of the written text after the other: characters that stand
for themselves, spaces inside a line, escapes, quotes that are written twice and line breaks.

## Main definitions

* `lineEnd`: the character that a line break is read as
* `Quoted`: the text that a written text between quotes stands for

## Main results

* `Quoted.quotedScalar_eq`: a written text between quotes is read as what it stands for
-/

namespace Storyline.Yaml

/-- A blank inside a line between quotes. -/
abbrev isIndent (c : Char) : Bool :=
  quotedBreaks.isIndent c

/-- The character that a line break other than a carriage return is read as. -/
def lineEnd (b : Char) : Char :=
  if b = '\u2028' || b = '\u2029' then b else '\n'

/-- Whether a text goes on with neither a blank nor a line break. -/
def GoesOn (r : List Char) : Prop :=
  ∀ x ∈ r.head?, isIndent x = false ∧ isBreak x = false

/-- The text between quotes that a written text stands for. -/
inductive Quoted (quote : Char) : List Char → List Char → Prop where
  | nil : Quoted quote [] []
  | char {ch : Char} {w s : List Char} (hindent : isIndent ch = false) (hbreak : isBreak ch = false)
    (hquote : ch ≠ quote) (hslash : ch = '\\' → quote ≠ '"') (h : Quoted quote w s) :
    Quoted quote (ch :: w) (ch :: s)
  | blanks {n : Nat} {w s : List Char} (hn : 0 < n) (hw : GoesOn w) (h : Quoted quote w s) :
    Quoted quote (List.replicate n ' ' ++ w) (List.replicate n ' ' ++ s)
  | escape {e : List Char} {ch : Char} {w s : List Char} (hquote : quote = '"')
    (he : ∀ (c : Cursor) (r : List Char), c.rest = e ++ r →
      escapeSequence c = .ok ([ch], c.steps e.length))
    (h : Quoted quote w s) : Quoted quote ('\\' :: (e ++ w)) (ch :: s)
  | doubled {w s : List Char} (hquote : quote = '\'') (h : Quoted quote w s) :
    Quoted quote ('\'' :: '\'' :: w) ('\'' :: s)
  | breaks {b : Char} {bs : List Char} {n : Nat} {w s : List Char}
    (hb : ∀ x ∈ b :: bs, isWrittenBreak x = true) (hn : 0 < n) (hw : GoesOn w)
    (h : Quoted quote w s) :
    Quoted quote (b :: (bs ++ (List.replicate n ' ' ++ w)))
      (folded (lineEnd b) (bs.map lineEnd) ++ s)

/-! ## Line breaks -/

theorem isWrittenBreak_cases {b : Char} (h : isWrittenBreak b = true) :
    b = '\n' ∨ b = '\u0085' ∨ b = '\u2028' ∨ b = '\u2029' := by
  simpa only [isWrittenBreak, Bool.or_eq_true, beq_iff_eq, or_assoc] using h

theorem isIndent_of_isWrittenBreak {b : Char} (h : isWrittenBreak b = true) :
    isIndent b = false := by
  rcases isWrittenBreak_cases h with rfl | rfl | rfl | rfl <;> decide

theorem isBreak_of_isWrittenBreak {b : Char} (h : isWrittenBreak b = true) : isBreak b = true := by
  rcases isWrittenBreak_cases h with rfl | rfl | rfl | rfl <;> decide

theorem lineBreak?_written {c : Cursor} {b : Char} {r : List Char} (h : c.rest = b :: r)
    (hb : isWrittenBreak b = true) : c.lineBreak? = some (lineEnd b, c.step) := by
  unfold Cursor.lineBreak?
  rw [h]
  rcases isWrittenBreak_cases hb with rfl | rfl | rfl | rfl <;> rfl

theorem atDocumentMark_eq_false {c : Cursor} {x : Char} {r : List Char} (h : c.rest = x :: r)
    (hx : x ≠ '-' ∧ x ≠ '.') : atDocumentMark c = false := by
  have hprefix (y : Char) (hy : x ≠ y) : [y, y, y].isPrefixOf c.rest = false := by
    rw [h, ← Bool.not_eq_true, List.isPrefixOf_iff_prefix, List.cons_prefix_cons]
    exact fun hp => hy hp.1.symm
  rw [atDocumentMark, hprefix '-' hx.1, hprefix '.' hx.2]
  rfl

theorem quotedBreaks_eq {c : Cursor} {bs r : List Char} {n fuel : Nat}
    (h : c.rest = bs ++ (List.replicate n ' ' ++ r)) (hbs : ∀ x ∈ bs, isWrittenBreak x = true)
    (hn : 0 < n) (hr : GoesOn r) (hfuel : bs.length < fuel) :
    quotedBreaks fuel c = .ok (bs.map lineEnd, c.steps (bs.length + n)) := by
  -- One empty line after the other, up to the blanks in front of the next text.
  induction bs generalizing c fuel with
  | nil =>
    obtain ⟨fuel, rfl⟩ := Nat.exists_eq_add_of_lt hfuel
    obtain ⟨n, rfl⟩ := Nat.exists_eq_add_of_lt hn
    rw [List.nil_append] at h
    have hskip : c.skip isIndent = c.steps (0 + n + 1) := by
      have hskip := Cursor.skip_append (p := isIndent) h
        (fun x hx => by rw [List.eq_of_mem_replicate hx]; rfl) fun x hx => (hr x hx).1
      rwa [List.length_replicate] at hskip
    have hrest : (c.steps (0 + n + 1)).rest = r := by
      have hrest := Cursor.rest_steps_append (w := List.replicate (0 + n + 1) ' ') h
      rwa [List.length_replicate] at hrest
    rw [List.length_nil, Nat.zero_add, quotedBreaks,
      atDocumentMark_eq_false (c := c) (x := ' ') h (by decide), if_neg Bool.false_ne_true]
    dsimp only
    rw [hskip, Cursor.lineBreak?_eq_none (by rw [hrest]; exact fun x hx => (hr x hx).2)]
    rw [Nat.zero_add (0 + n + 1)]
    rfl
  | cons b bs ih =>
    obtain ⟨fuel, rfl⟩ := Nat.exists_eq_add_of_lt hfuel
    have hb := hbs b List.mem_cons_self
    have hmark : b ≠ '-' ∧ b ≠ '.' := by
      rcases isWrittenBreak_cases hb with rfl | rfl | rfl | rfl <;> decide
    have hrest : c.step.rest = bs ++ (List.replicate n ' ' ++ r) := by
      rw [Cursor.rest_step, h]
      rfl
    rw [quotedBreaks, atDocumentMark_eq_false h hmark, if_neg Bool.false_ne_true]
    dsimp only
    rw [Cursor.skip_eq_self (p := isIndent) (by
        rw [h]
        exact fun x hx => by cases hx; exact isIndent_of_isWrittenBreak hb),
      lineBreak?_written h hb]
    dsimp only
    rw [ih hrest (fun x hx => hbs x (List.mem_cons_of_mem _ hx))
      (by rw [List.length_cons]; omega)]
    rw [Cursor.step_eq_steps, ← Cursor.steps_add, List.length_cons,
      show 1 + (bs.length + n) = bs.length + 1 + n by omega]
    rfl

/-! ## One piece after the other -/

section

variable {quote : Char} {c : Cursor} {rest s : List Char} {fuel : Nat}

theorem quotedText_of_not_indent (h : ∀ x ∈ c.rest.head?, isIndent x = false) :
    quotedText quote (fuel + 1) c =
      match c.rest with
      | [] => c.fail .endInQuotes
      | '\'' :: '\'' :: _ =>
        if quote = '\'' then quotedText.more quote ['\''] (c.steps 2) fuel
        else quotedText.more quote ['\''] c.step fuel
      | '\\' :: _ =>
        if quote = '"' then do
          let (s, c) ← escapeSequence c.step
          quotedText.more quote s c fuel
        else quotedText.more quote ['\\'] c.step fuel
      | ch :: _ =>
        if ch = quote then .ok ([], c.step)
        else match c.lineBreak? with
          | some (first, c) => do
            let (empty, c) ← quotedBreaks (c.rest.length + 1) c
            quotedText.more quote (folded first empty) c fuel
          | none => quotedText.more quote [ch] c.step fuel := by
  rw [quotedText, Cursor.span_append (w := []) rfl (by simp) h]
  rfl

theorem more_eq {t : List Char} {d : Cursor} (s : List Char)
    (h : quotedText quote fuel c = .ok (t, d)) :
    quotedText.more quote s c fuel = .ok (s ++ t, d) := by
  rw [quotedText.more, h]
  rfl

theorem quotedText_char {ch : Char} (h : c.rest = ch :: rest) (hindent : isIndent ch = false)
    (hbreak : isBreak ch = false) (hquote : ch ≠ quote) (hslash : ch = '\\' → quote ≠ '"') :
    quotedText quote (fuel + 1) c = quotedText.more quote [ch] c.step fuel := by
  rw [quotedText_of_not_indent (by rw [h]; exact fun x hx => by cases hx; exact hindent)]
  have hnone : c.lineBreak? = none :=
    Cursor.lineBreak?_eq_none (by rw [h]; exact fun x hx => by cases hx; exact hbreak)
  rw [h]
  split
  · next heq => cases heq
  · next heq =>
    obtain ⟨rfl, -⟩ := List.cons.inj heq
    rw [if_neg fun hq => hquote hq.symm]
  · next heq =>
    obtain ⟨rfl, -⟩ := List.cons.inj heq
    rw [if_neg (hslash rfl)]
  · next heq =>
    obtain ⟨rfl, -⟩ := List.cons.inj heq
    rw [if_neg hquote, hnone]

theorem quotedText_close (h : c.rest = quote :: rest) (hquote : quote = '\'' ∨ quote = '"')
    (hrest : quote = '\'' → rest.head? ≠ some '\'') :
    quotedText quote (fuel + 1) c = .ok ([], c.step) := by
  rw [quotedText_of_not_indent (by
    rw [h]
    intro x hx
    cases hx
    rcases hquote with rfl | rfl <;> decide), h]
  split
  · next heq => cases heq
  · next heq =>
    obtain ⟨rfl, rfl⟩ := List.cons.inj heq
    exact absurd rfl (hrest rfl)
  · next heq =>
    obtain ⟨rfl, -⟩ := List.cons.inj heq
    exact absurd hquote (by decide)
  · next heq =>
    obtain ⟨rfl, -⟩ := List.cons.inj heq
    rw [if_pos rfl]

theorem quotedText_blanks {n : Nat} (h : c.rest = List.replicate n ' ' ++ rest) (hn : 0 < n)
    (hrest : GoesOn rest) :
    quotedText quote (fuel + 1) c =
      quotedText.more quote (List.replicate n ' ') (c.steps n) fuel := by
  have hspan := Cursor.span_append (p := isIndent) h
    (fun x hx => by rw [List.eq_of_mem_replicate hx]; rfl) fun x hx => (hrest x hx).1
  have hnext := Cursor.rest_steps_append h
  rw [List.length_replicate] at hspan hnext
  obtain ⟨n, rfl⟩ := Nat.exists_eq_add_of_lt hn
  rw [quotedText, hspan]
  dsimp only
  rw [List.replicate_succ, List.isEmpty_cons, if_neg Bool.false_ne_true, ← List.replicate_succ,
    Cursor.lineBreak?_eq_none (by rw [hnext]; exact fun x hx => (hrest x hx).2)]

theorem quotedText_escape {e : List Char} {ch : Char} (h : c.rest = '\\' :: (e ++ rest))
    (he : ∀ (c : Cursor) (r : List Char), c.rest = e ++ r →
      escapeSequence c = .ok ([ch], c.steps e.length)) :
    quotedText '"' (fuel + 1) c =
      quotedText.more '"' [ch] (c.steps (e.length + 1)) fuel := by
  have hstep : c.step.rest = e ++ rest := by
    rw [Cursor.rest_step, h]
    rfl
  rw [quotedText_of_not_indent (by rw [h]; exact fun x hx => by cases hx; decide), h]
  dsimp only
  rw [if_pos rfl, he _ _ hstep]
  rfl

theorem quotedText_doubled (h : c.rest = '\'' :: '\'' :: rest) :
    quotedText '\'' (fuel + 1) c = quotedText.more '\'' ['\''] (c.steps 2) fuel := by
  rw [quotedText_of_not_indent (by rw [h]; exact fun x hx => by cases hx; decide), h]
  rfl

theorem quotedText_breaks {b : Char} {bs : List Char} {n : Nat}
    (h : c.rest = b :: (bs ++ (List.replicate n ' ' ++ rest)))
    (hb : ∀ x ∈ b :: bs, isWrittenBreak x = true) (hn : 0 < n) (hrest : GoesOn rest)
    (hquote : quote = '\'' ∨ quote = '"') :
    quotedText quote (fuel + 1) c = quotedText.more quote (folded (lineEnd b) (bs.map lineEnd))
      (c.steps (bs.length + n + 1)) fuel := by
  have hstep : c.step.rest = bs ++ (List.replicate n ' ' ++ rest) := by
    rw [Cursor.rest_step, h]
    rfl
  have hb₁ := hb b List.mem_cons_self
  have hfuel : bs.length < c.step.rest.length + 1 := by
    rw [hstep, List.length_append]
    omega
  have hbreaks := quotedBreaks_eq hstep (fun x hx => hb x (List.mem_cons_of_mem _ hx)) hn hrest
    hfuel
  have hnot : b ≠ quote ∧ b ≠ '\'' ∧ b ≠ '\\' := by
    rcases isWrittenBreak_cases hb₁ with rfl | rfl | rfl | rfl <;>
      rcases hquote with rfl | rfl <;> decide
  rw [quotedText_of_not_indent (by
    rw [h]; exact fun x hx => by cases hx; exact isIndent_of_isWrittenBreak hb₁)]
  have hsome := lineBreak?_written h hb₁
  rw [h]
  split
  · next heq => cases heq
  · next heq => exact absurd (List.cons.inj heq).1 hnot.2.1
  · next heq => exact absurd (List.cons.inj heq).1 hnot.2.2
  · next heq =>
    obtain ⟨rfl, -⟩ := List.cons.inj heq
    rw [if_neg hnot.1, hsome]
    dsimp only
    rw [hbreaks, Cursor.step_eq_steps, ← Cursor.steps_add, Nat.add_comm 1]
    rfl

/-- A piece in front of a text that is read is read before it. -/
theorem quotedText_append {p w t : List Char} (hp : 0 < p.length)
    (hstep : ∀ fuel, quotedText quote (fuel + 1) c =
      quotedText.more quote t (c.steps p.length) fuel)
    (hc : c.rest = p ++ (w ++ quote :: rest))
    (ih : ∀ {c : Cursor}, c.rest = w ++ quote :: rest → ∀ {fuel : Nat}, w.length < fuel →
      quotedText quote fuel c = .ok (s, c.steps (w.length + 1)))
    (hfuel : (p ++ w).length < fuel) :
    quotedText quote fuel c = .ok (t ++ s, c.steps ((p ++ w).length + 1)) := by
  obtain ⟨fuel, rfl⟩ := Nat.exists_eq_add_of_lt hfuel
  rw [hstep, more_eq t (ih (Cursor.rest_steps_append hc) ?_)]
  · rw [← Cursor.steps_add, List.length_append, Nat.add_assoc]
  · rw [List.length_append]
    omega

end

/-- What is read from a written text between quotes up to the quote that closes it. -/
theorem Quoted.quotedText_eq {quote : Char} {w s : List Char} (h : Quoted quote w s)
    (hquote : quote = '\'' ∨ quote = '"') {rest : List Char}
    (hrest : quote = '\'' → rest.head? ≠ some '\'') {c : Cursor}
    (hc : c.rest = w ++ quote :: rest) {fuel : Nat} (hfuel : w.length < fuel) :
    quotedText quote fuel c = .ok (s, c.steps (w.length + 1)) := by
  -- The closing quote is neither a blank nor a line break, so what ends a piece still ends it.
  have hgoesOn {w : List Char} (hw : GoesOn w) : GoesOn (w ++ quote :: rest) := by
    cases w with
    | nil =>
      intro x hx
      cases hx
      rcases hquote with rfl | rfl <;> decide
    | cons y w => exact hw
  induction h generalizing c fuel with
  | nil =>
    obtain ⟨fuel, rfl⟩ := Nat.exists_eq_add_of_lt hfuel
    exact quotedText_close hc hquote hrest
  | @char ch w s hindent hbreak hne hslash h ih =>
    exact quotedText_append (p := [ch]) Nat.one_pos
      (fun _ => quotedText_char hc hindent hbreak hne hslash) hc ih hfuel
  | @blanks n w s hn hw h ih =>
    rw [List.append_assoc] at hc
    refine quotedText_append (p := List.replicate n ' ') (by rwa [List.length_replicate])
      (fun _ => ?_) hc ih hfuel
    rw [List.length_replicate]
    exact quotedText_blanks hc hn (hgoesOn hw)
  | @escape e ch w s hq he h ih =>
    subst hq
    rw [List.cons_append, List.append_assoc] at hc
    exact quotedText_append (p := '\\' :: e) (Nat.succ_pos _)
      (fun _ => quotedText_escape hc he) hc ih hfuel
  | @doubled w s hq h ih =>
    subst hq
    exact quotedText_append (p := ['\'', '\'']) Nat.two_pos
      (fun _ => quotedText_doubled hc) hc ih hfuel
  | @breaks b bs n w s hb hn hw h ih =>
    have hpiece (t : List Char) : b :: (bs ++ (List.replicate n ' ' ++ t)) =
        b :: (bs ++ List.replicate n ' ') ++ t := by
      rw [List.cons_append, List.append_assoc]
    have hlength : (b :: (bs ++ List.replicate n ' ')).length = bs.length + n + 1 := by
      rw [List.length_cons, List.length_append, List.length_replicate]
    rw [hpiece] at hfuel ⊢
    rw [List.cons_append, List.append_assoc, List.append_assoc] at hc
    refine quotedText_append (Nat.succ_pos _) (fun _ => ?_) (hc.trans (hpiece _)) ih hfuel
    rw [hlength]
    exact quotedText_breaks hc hb hn (hgoesOn hw) hquote

/-- **A written text between quotes is read as what it stands for.** -/
theorem Quoted.quotedScalar_eq {quote : Char} {w s : List Char} (h : Quoted quote w s)
    (hquote : quote = '\'' ∨ quote = '"') {rest : List Char}
    (hrest : quote = '\'' → rest.head? ≠ some '\'') {c : Cursor}
    (hc : c.rest = quote :: (w ++ quote :: rest)) :
    quotedScalar quote c = .ok (s, c.steps (w.length + 2)) := by
  have hstep : c.step.rest = w ++ quote :: rest := by
    rw [Cursor.rest_step, hc]
    rfl
  rw [quotedScalar, h.quotedText_eq hquote hrest hstep (by
      rw [hc, List.length_cons, List.length_append]
      omega),
    Cursor.step_eq_steps, ← Cursor.steps_add, Nat.add_comm 1]

end Storyline.Yaml
