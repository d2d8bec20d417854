import Storyline.Proofs.Yaml.Number
import Storyline.Proofs.Yaml.Plain
import Storyline.Proofs.Yaml.Turns

/-!
# The tokens of scalars

A scalar is written plain or between quotes, and a scanner that stands at it fetches one token: the
text that was written, except that between single quotes line breaks are folded.

## Main definitions

* `stringWord`, `wordOf`: the word of a string and of a scalar

## Main results

* `fetchAt_scalar`: what is fetched at a scalar
-/

namespace Storyline.Yaml

/-- The word of a string. -/
def stringWord (place : Place) (s : List Char) : Word :=
  match styleOf place s with
  | .plain => .scalar s true
  | .single => .scalar (foldBreaks false s) false
  | .double => .scalar s false

/-- The word of a scalar. -/
def wordOf (place : Place) : Value → Word
  | .bool b => .scalar (if b then "true" else "false").toList true
  | .int n => .scalar (Number.intDigits n) true
  | .float x => .scalar (Number.render floatLayout x).toList true
  | .str s => stringWord place s.toList
  | _ => .scalar "null".toList true

/-! ## What stands in a text -/

/-- The text of a scalar: plain or between quotes. -/
inductive ScalarText (flow : Bool) : List Char → Word → Prop where
  | plain {s : List Char} (h : PlainText flow s) : ScalarText flow s (.scalar s true)
  | quoted {quote : Char} {w s : List Char} (hquote : quote = '\'' ∨ quote = '"')
    (h : Quoted quote w s) : ScalarText flow (quote :: (w ++ [quote])) (.scalar s false)

theorem styleOf_cases (place : Place) (s : List Char) :
    styleOf place s = .double ∨
      styleOf place s = .single ∧ allowsSingle s = true ∧ '\n' ∉ s ∧ '\r' ∉ s ∨
      styleOf place s = .plain ∧ Tag.ofPlain s = .str ∧
        allowsPlain (place == .bracket) s = true := by
  rw [styleOf]
  split
  · exact .inl rfl
  · next hbreak =>
    rw [Bool.or_eq_true, List.contains_iff_mem, List.contains_iff_mem, not_or] at hbreak
    split
    · next h =>
      rw [Bool.and_eq_true, beq_iff_eq] at h
      exact .inr (.inr ⟨rfl, h⟩)
    · split
      · next h => exact .inr (.inl ⟨rfl, h, hbreak⟩)
      · exact .inl rfl

theorem scalarText_string (place : Place) {indent : Nat} (hindent : 0 < indent) (s : List Char) :
    ScalarText (place == .bracket) (stringText place indent s) (stringWord place s) := by
  rw [stringText, stringWord]
  rcases styleOf_cases place s with h | ⟨h, hsingle, -⟩ | ⟨h, htag, hplain⟩
  · rw [h]
    exact .quoted (.inr rfl) (quoted_double s)
  · rw [h]
    exact .quoted (.inl rfl) (quoted_single hsingle hindent)
  · rw [h]
    refine .plain (plainText_of_allowsPlain hplain ?_)
    rintro rfl
    cases htag

theorem plainText_of_figures {s : List Char} (h : Figures s) : PlainText false s := by
  refine plainText_of_allowsPlain h.allowsPlain ?_
  obtain ⟨-, c, r, rfl, -⟩ := h
  exact List.cons_ne_nil c r

/-- A scalar outside brackets is written as a text that has its word. -/
theorem scalarText_of_scalarForm {place : Place} (hplace : place ≠ .bracket) {indent : Nat}
    (hindent : 0 < indent) {v : Value} {text : List Char}
    (h : scalarForm place indent v = .ok text) : ScalarText false text (wordOf place v) := by
  have hflow : (place == .bracket) = false := beq_eq_false_iff_ne.2 hplace
  have hnull : ScalarText false "null".toList (.scalar "null".toList true) :=
    .plain (plainText_of_allowsPlain (by decide) (by decide))
  cases v with
  | bool b =>
    cases h
    exact .plain (plainText_of_allowsPlain (allowsPlain_bool b) (by cases b <;> decide))
  | int n =>
    rw [scalarForm, Number.writeInt] at h
    split at h
    · cases h
    · cases h
      rw [String.toList_ofList]
      exact .plain (plainText_of_figures (figures_intDigits n))
  | float x =>
    cases h
    exact .plain (plainText_of_figures (figures_render x))
  | str s =>
    cases h
    have htext := scalarText_string place hindent s.toList
    rwa [hflow] at htext
  | _ =>
    cases h
    exact hnull

/-! ## Fetching a scalar -/

namespace Scanner

variable {s : Scanner} {rest : List Char}

theorem head?_ne_of_endsPlain {flow : Bool} {q : Char} (hq : q = '-' ∨ q = '.')
    (h : endsPlain flow rest = true) : rest.head? ≠ some q := by
  intro hhead
  obtain ⟨r, rfl⟩ := List.head?_eq_some_iff.1 hhead
  rw [endsPlain] at h
  rcases hq with rfl | rfl <;> cases flow <;> simp [isSeparator, isBreak] at h

theorem isPrefixOf_append {t : List Char} {q : Char} (ht : t ≠ [])
    (h : [q, q, q].isPrefixOf t = false) (hrest : rest.head? ≠ some q) :
    [q, q, q].isPrefixOf (t ++ rest) = false := by
  rw [← Bool.not_eq_true, List.isPrefixOf_iff_prefix] at h ⊢
  intro hp
  obtain ⟨u, hu⟩ := hp
  rcases t with _ | ⟨a, _ | ⟨b, _ | ⟨c, t⟩⟩⟩
  · exact ht rfl
  · refine hrest ?_
    have htail : [q, q] ++ u = rest := (List.cons.inj hu).2
    rw [← htail]
    rfl
  · refine hrest ?_
    have htail : [q] ++ u = rest := (List.cons.inj (List.cons.inj hu).2).2
    rw [← htail]
    rfl
  · refine h ⟨t, ?_⟩
    simp only [List.cons_append, List.nil_append, List.cons.injEq] at hu ⊢
    exact ⟨hu.1, hu.2.1, hu.2.2.1, trivial⟩

theorem atDocumentMark_plain {flow : Bool} {t : List Char} (ht : PlainText flow t)
    (hends : endsPlain flow rest = true) {c : Cursor} (hrest : c.rest = t ++ rest) :
    atDocumentMark c = false := by
  have hne : t ≠ [] := by
    obtain ⟨x, r, rfl, -⟩ := ht.head
    exact List.cons_ne_nil x r
  rw [atDocumentMark, hrest,
    isPrefixOf_append hne ht.hyphens (head?_ne_of_endsPlain (.inl rfl) hends),
    isPrefixOf_append hne ht.points (head?_ne_of_endsPlain (.inr rfl) hends)]
  rfl

theorem fetchAt_plain {flow : Bool} {t : List Char} (ht : PlainText flow t)
    (hends : endsPlain flow rest = true) (hflow : (s.flow != 0) = flow)
    (hrest : s.cursor.rest = t ++ rest) : s.fetchAt = s.fetchPlain := by
  have hdocument := atDocumentMark_plain ht hends hrest
  obtain ⟨x, r, rfl, hx, hmark⟩ := ht.head
  have hpeek : s.cursor.peek = some x := by rw [Cursor.peek, hrest]; rfl
  obtain ⟨hlist, hflow', hseparator⟩ := startsWithMark_eq_false hmark
  have hne {d : Char} (hd : d ∈ "#,[]\x7b\x7d&*!|>'\"%@`".toList) : (x == d) = false := by
    rw [beq_eq_false_iff_ne]
    rintro rfl
    exact hlist hd
  have hnext : x = '-' ∨ x = '?' ∨ x = ':' →
      ∃ d, s.cursor.peekAt 1 = some d ∧ isSeparator d = false := by
    intro hcase
    obtain ⟨d, t, rfl, hd⟩ := hseparator hcase
    exact ⟨d, by rw [Cursor.peekAt, hrest]; rfl, hd⟩
  have hapart : x = '-' ∨ x = '?' ∨ x = ':' → s.cursor.endsAtOr isSeparator 1 = false := by
    intro hcase
    obtain ⟨d, hd, hseparator⟩ := hnext hcase
    rw [Cursor.endsAtOr, hd, Option.all_some, hseparator]
  -- A plain text passes by every branch in front of that of plain scalars.
  have h₁ : (x == '-' && s.cursor.endsAtOr isSeparator 1) = false := by
    by_cases hcase : x = '-'
    · rw [hapart (.inl hcase), Bool.and_false]
    · rw [beq_eq_false_iff_ne.2 hcase, Bool.false_and]
  have h₂ {q : Char} (hq : q = '?' ∨ q = ':') :
      (x == q && ((s.flow != 0) || s.cursor.endsAtOr isSeparator 1)) = false := by
    by_cases hcase : x = q
    · subst hcase
      rw [hflow, hflow' hq, hapart (.inr hq), Bool.or_false, Bool.and_false]
    · rw [beq_eq_false_iff_ne.2 hcase, Bool.false_and]
  have h₃ : startsPlain (s.flow != 0) x (s.cursor.peekAt 1) = true := by
    rw [startsPlain]
    by_cases hcase : x = '-' ∨ x = '?' ∨ x = ':'
    · obtain ⟨d, hd, hseparator⟩ := hnext hcase
      rw [hd, Option.any_some, hseparator, hflow]
      rcases hcase with rfl | hcase
      · rw [beq_self_eq_true]
        simp
      · rw [hflow' hcase]
        rcases hcase with rfl | rfl <;> decide
    · have hcontains : "-?:,[]\x7b\x7d#&*!|>'\"%@`".toList.contains x = false := by
        rw [not_or, not_or] at hcase
        rw [← Bool.not_eq_true, List.contains_iff_mem]
        simp only [String.reduceToList, List.mem_cons, not_or] at hlist ⊢
        simp_all
      rw [hx, hcontains]
      rfl
  unfold fetchAt
  dsimp only
  rw [hpeek]
  dsimp only
  rw [hdocument, Bool.and_false, if_neg (c := false = true) Bool.false_ne_true,
    hne (d := '%') (by decide), hne (d := '[') (by decide), hne (d := '{') (by decide),
    hne (d := ']') (by decide), hne (d := '}') (by decide), hne (d := ',') (by decide), h₁,
    h₂ (.inl rfl), h₂ (.inr rfl), hne (d := '*') (by decide), hne (d := '&') (by decide),
    hne (d := '!') (by decide), hne (d := '|') (by decide), hne (d := '>') (by decide),
    hne (d := '\'') (by decide), hne (d := '"') (by decide), h₃]
  rfl

/-- A quote is the start of a scalar between quotes. -/
theorem fetchAt_quote {quote : Char} (hquote : quote = '\'' ∨ quote = '"')
    (hrest : s.cursor.rest = quote :: rest) : s.fetchAt = s.fetchQuoted quote := by
  have hpeek : s.cursor.peek = some quote := by rw [Cursor.peek, hrest]; rfl
  have hdocument : atDocumentMark s.cursor = false :=
    atDocumentMark_eq_false hrest (by rcases hquote with rfl | rfl <;> decide)
  unfold fetchAt
  dsimp only
  rw [hpeek]
  dsimp only
  rw [hdocument, Bool.and_false]
  rcases hquote with rfl | rfl <;> rfl

/-- **At a scalar its word is fetched.** The scanner is left at the end of the scalar or, if it is
plain, where a plain scalar that ends there is left. -/
theorem fetchAt_scalar {text : List Char} {word : Word}
    (h : ScalarText (s.flow != 0) text word) (hrest : s.cursor.rest = text ++ rest)
    (hends : endsPlain (s.flow != 0) rest = true) (hquote : rest.head? ≠ some '\'')
    (hcolumn : s.flow ≠ 0 ∨ s.indent ≤ s.cursor.column) {ks : List (Nat × KeyStart)}
    (hmark : s.markKeyStart = .ok { s with keyStarts := ks }) {ended : Bool} {d : Cursor}
    (hhalts : Halts (s.flow != 0) (s.indent + 1) (s.cursor.steps text.length) ended d) :
    ∃ ended' d', s.fetchAt = .ok { s with
        cursor := d', keyAllowed := ended', keyStarts := ks
        tokens := s.tokens.push ⟨word, s.cursor.line⟩ } ∧
      (ended' = ended ∧ d' = d ∨ ended' = false ∧ d' = s.cursor.steps text.length) := by
  generalize hflow : (s.flow != 0) = flow at *
  cases h with
  | plain h =>
    refine ⟨ended, d, ?_, .inl ⟨rfl, rfl⟩⟩
    have hmargin : flow = true ∨ s.indent + 1 ≤ s.cursor.column + 1 := by
      rcases hcolumn with h | h
      · left
        rw [← hflow]
        exact bne_iff_ne.2 h
      · right
        omega
    have hplain := plainScalar_eq h hends hrest hmargin hhalts
    rw [fetchAt_plain h hends hflow hrest, fetchPlain, hmark]
    show (Except.ok _ : Except Fault Scanner) = _
    dsimp only
    rw [hflow, hplain]
    rfl
  | @quoted quote w t hq h =>
    refine ⟨false, _, ?_, .inr ⟨rfl, rfl⟩⟩
    have htext : s.cursor.rest = quote :: (w ++ quote :: rest) := by
      rw [hrest, List.cons_append, List.append_assoc]
      rfl
    have hlength : (quote :: (w ++ [quote])).length = w.length + 2 := by
      rw [List.length_cons, List.length_append]
      rfl
    have hscalar := h.quotedScalar_eq hq (fun _ => hquote) htext
    rw [fetchAt_quote hq htext, fetchQuoted, fetchContent, hmark, hlength]
    simp only [bind, Except.bind, hscalar]
    rfl

end Scanner

end Storyline.Yaml
