import Storyline.Proofs.Yaml.Cursor
import Storyline.Yaml.Text
import Storyline.Yaml.Token.Stream

/-!
# One token after the other

Before a token is fetched, what stands between the tokens is passed over, key starts after which no
colon can follow are dropped and blocks that end are closed. This module says what of the scanner is
left then: on the same line nothing changes but the place, and on a new line every key start is
gone and the blocks that are indented more than the new line are closed.

## Main definitions

* `Ends`: the end of a text
* `Scanner.turn`: one token
* `Runs`: some tokens, one after the other
* `closeAll`: the blocks and the words after closing blocks
* `Ready`: a scanner at a token on a new line
* `Paused`: a scanner between tokens

## Main results

* `run_of_runs`: scanning goes on after some tokens
* `turn_sameLine`, `turn_newLine`, `turn_end`: what is fetched next
-/

namespace Storyline.Yaml

/-- Whether a text is at its end or begins with a token. -/
def TokenStart (r : List Char) : Prop :=
  ∀ x ∈ r.head?, x ≠ ' ' ∧ x ≠ '#' ∧ isBreak x = false ∧ x ≠ '\uFEFF'

/-- Whether nothing is left of a text, but for a line break perhaps. -/
def Ends (r : List Char) : Prop :=
  r = [] ∨ r = newLine 0

namespace Scanner

/-- The words so far. -/
def words (s : Scanner) : List Word :=
  s.tokens.toList.map Token.word

/-- The indentations of the open blocks, the innermost first. -/
def blocks (s : Scanner) : List Int :=
  s.indent :: s.indents

/-- One token. -/
def turn (s : Scanner) : Except Fault Scanner := do
  (← s.dropStale).fetch

/-- Some tokens, one after the other. -/
inductive Runs : Nat → Scanner → Scanner → Prop where
  | refl (s : Scanner) : Runs 0 s s
  | head {n : Nat} {s t u : Scanner} (hdone : s.done = false) (ht : s.turn = .ok t)
    (h : Runs n t u) : Runs (n + 1) s u

theorem Runs.trans {m n : Nat} {s t u : Scanner} (h : Runs m s t) (h' : Runs n t u) :
    Runs (m + n) s u := by
  induction h with
  | refl s => rwa [Nat.zero_add]
  | head hdone ht h ih =>
    rw [Nat.add_right_comm]
    exact .head hdone ht (ih h')

/-- Scanning goes on after some tokens. -/
theorem run_of_runs {n : Nat} {s t : Scanner} (h : Runs n s t) (fuel given : Nat) :
    ∃ given', run (n + fuel) given s = run fuel given' t := by
  induction h generalizing given with
  | refl s => exact ⟨given, by rw [Nat.zero_add]⟩
  | @head n s t u hdone ht h ih =>
    unfold turn at ht
    cases hs : s.dropStale with
    | error f =>
      rw [hs] at ht
      cases ht
    | ok s' =>
      rw [hs] at ht
      obtain ⟨given', hrun⟩ := ih s'.released
      refine ⟨given', ?_⟩
      rw [Nat.add_right_comm, run, hdone, if_neg Bool.false_ne_true, hs]
      dsimp only
      rw [show s'.fetch = .ok t from ht]
      exact hrun

/-! ## Dropping key starts -/

variable {s : Scanner}

theorem dropStale_of_fresh (h : ∀ p ∈ s.keyStarts, s.isStale p.2 = false) :
    s.dropStale = .ok s := by
  have hany : (s.keyStarts.any fun p => s.isStale p.2 && p.2.required) = false := by
    rw [List.any_eq_false]
    intro p hp
    rw [h p hp, Bool.false_and]
    decide
  have hfilter : (s.keyStarts.filter fun p => !s.isStale p.2) = s.keyStarts := by
    rw [List.filter_eq_self]
    intro p hp
    rw [h p hp]
    rfl
  rw [dropStale, hany, if_neg Bool.false_ne_true, hfilter]

/-- Key starts at which no key has to begin are dropped without a fault. -/
theorem dropStale_of_quiet (h : ∀ p ∈ s.keyStarts, p.2.required = false) :
    s.dropStale = .ok { s with keyStarts := s.keyStarts.filter fun p => !s.isStale p.2 } := by
  rw [dropStale, if_neg]
  rw [Bool.not_eq_true, List.any_eq_false]
  intro p hp
  rw [h p hp, Bool.and_false]
  decide

theorem dropKeyStart_of_quiet (h : ∀ p ∈ s.keyStarts, p.2.required = false) :
    s.dropKeyStart = .ok { s with keyStarts := s.keyStarts.filter fun p => p.1 != s.flow } := by
  rw [dropKeyStart, if_neg]
  rw [Bool.not_eq_true, List.any_eq_false]
  intro p hp
  rw [h p hp, Bool.and_false]
  decide

/-! ## Passing over what is between tokens -/

theorem lineBreak?_of_tokenStart {c : Cursor} (h : TokenStart c.rest) : c.lineBreak? = none :=
  Cursor.lineBreak?_eq_none fun x hx => (h x hx).2.2.1

theorem toNextToken_spaces {c : Cursor} {n : Nat} {next : List Char}
    (h : c.rest = List.replicate n ' ' ++ next) (hnext : TokenStart next) (flow fuel : Nat)
    (allowed : Bool) : toNextToken flow (fuel + 1) allowed c = (allowed, c.steps n) := by
  have hskip := Cursor.skip_append (p := (· == ' ')) h
    (fun x hx => by rw [List.eq_of_mem_replicate hx]; rfl)
    fun x hx => beq_eq_false_iff_ne.2 (hnext x hx).1
  have hrest := Cursor.rest_steps_append h
  rw [List.length_replicate] at hskip hrest
  have hpeek : ((c.steps n).peek == some '#') = false := by
    rw [Cursor.peek, hrest, beq_eq_false_iff_ne]
    exact fun hhead => (hnext '#' hhead).2.1 rfl
  rw [toNextToken, hskip]
  rw [hpeek, if_neg Bool.false_ne_true, lineBreak?_of_tokenStart (by rwa [hrest])]

theorem toNextToken_newLine {c : Cursor} {n : Nat} {next : List Char}
    (h : c.rest = newLine n ++ next) (hnext : TokenStart next) (fuel : Nat) (allowed : Bool) :
    toNextToken 0 (fuel + 2) allowed c = (true, c.step.steps n) := by
  have hstep : c.step.rest = List.replicate n ' ' ++ next := by
    rw [Cursor.rest_step, h]
    rfl
  have hskip : c.skip (· == ' ') = c :=
    Cursor.skip_eq_self (by rw [h]; exact fun x hx => by cases hx; decide)
  have hpeek : (c.peek == some '#') = false := by
    rw [Cursor.peek, h]
    rfl
  rw [toNextToken, hskip]
  rw [hpeek, if_neg Bool.false_ne_true, Cursor.lineBreak?_lineFeed h]
  dsimp only
  rw [toNextToken_spaces hstep hnext, beq_self_eq_true, Bool.or_true]

theorem skipBlanks_eq {allowed : Bool} {c : Cursor}
    (hmark : s.cursor.peek ≠ some '\uFEFF')
    (h : toNextToken s.flow (s.cursor.rest.length + 1) s.keyAllowed s.cursor = (allowed, c)) :
    s.skipBlanks = { s with cursor := c, keyAllowed := allowed } := by
  have hmark' : (s.cursor.index == 0 && s.cursor.peek == some '\uFEFF') = false := by
    rw [Bool.and_eq_false_iff]
    exact .inr (beq_eq_false_iff_ne.2 hmark)
  unfold skipBlanks
  dsimp only
  rw [hmark', if_neg Bool.false_ne_true, h]

theorem peek_ne_mark {c : Cursor} {w next : List Char} (h : c.rest = w ++ next)
    (hw : '\uFEFF' ∉ w) (hnext : TokenStart next) : c.peek ≠ some '\uFEFF' := by
  rw [Cursor.peek, h]
  cases w with
  | nil => exact fun hhead => (hnext _ hhead).2.2.2 rfl
  | cons x w =>
    intro hhead
    exact hw (by rw [← Option.some.inj hhead]; exact List.mem_cons_self)

/-! ## Closing blocks -/

/-- The blocks and the words after closing the blocks that are indented more than a column. -/
def closeAll (column : Int) : List Int → List Word → List Int × List Word
  | i :: o :: r, ws =>
    if column < i then closeAll column (o :: r) (ws ++ [.blockEnd]) else (i :: o :: r, ws)
  | blocks, ws => (blocks, ws)

theorem closeAll_of_le {column i : Int} (h : i ≤ column) (r : List Int) (ws : List Word) :
    closeAll column (i :: r) ws = (i :: r, ws) := by
  cases r with
  | nil => rfl
  | cons o r => rw [closeAll, if_neg (not_lt.2 h)]

theorem closeAll_of_lt {column i o : Int} (h : column < i) (r : List Int) (ws : List Word) :
    closeAll column (i :: o :: r) ws = closeAll column (o :: r) (ws ++ [.blockEnd]) := by
  rw [closeAll, if_pos h]

/-- Closing blocks at once is closing them one indentation after the other. -/
theorem closeAll_closeAll {m n : Int} (h : m ≤ n) (blocks : List Int) (ws : List Word) :
    closeAll m (closeAll n blocks ws).1 (closeAll n blocks ws).2 = closeAll m blocks ws := by
  induction blocks generalizing ws with
  | nil => rfl
  | cons i r ih =>
    cases r with
    | nil => rfl
    | cons o r =>
      by_cases hn : n < i
      · rw [closeAll_of_lt hn, closeAll_of_lt (h.trans_lt hn), ih]
      · rw [closeAll_of_le (not_lt.1 hn)]

theorem closeBlocks_eq (line : Nat) (column : Int) (indents : List Int) (indent : Int)
    (tokens : Array Token) :
    ((closeBlocks line column indents indent tokens).2.1 ::
        (closeBlocks line column indents indent tokens).1,
      (closeBlocks line column indents indent tokens).2.2.toList.map Token.word) =
      closeAll column (indent :: indents) (tokens.toList.map Token.word) := by
  induction indents generalizing indent tokens with
  | nil => rfl
  | cons o r ih =>
    rw [closeBlocks, closeAll]
    split
    · rw [ih, Array.toList_push, List.map_append]
      rfl
    · rfl

theorem unwind_spec (hflow : s.flow = 0) (column : Int) :
    (s.unwind column).blocks = (closeAll column s.blocks s.words).1 ∧
      (s.unwind column).words = (closeAll column s.blocks s.words).2 := by
  have h := closeBlocks_eq s.cursor.line column s.indents s.indent s.tokens
  rw [unwind, hflow]
  exact ⟨congrArg Prod.fst h, congrArg Prod.snd h⟩

/-- Closing blocks changes nothing else. -/
theorem unwind_frame (s : Scanner) (column : Int) :
    (s.unwind column).cursor = s.cursor ∧ (s.unwind column).flow = s.flow ∧
      (s.unwind column).keyStarts = s.keyStarts ∧ (s.unwind column).keyAllowed = s.keyAllowed ∧
      (s.unwind column).done = s.done := by
  rw [unwind]
  split <;> exact ⟨rfl, rfl, rfl, rfl, rfl⟩

/-- Where no block is indented more, none is closed. -/
theorem unwind_eq_self {column : Int} (h : s.flow ≠ 0 ∨ s.indent ≤ column) :
    s.unwind column = s := by
  rw [unwind]
  split
  · rfl
  · next hflow =>
    have hindent := h.resolve_left fun h => hflow (by simpa using h)
    cases s with
    | mk cursor flow indent indents keyAllowed keyStarts tokens done =>
      dsimp only at hindent ⊢
      cases indents with
      | nil => rfl
      | cons o r => rw [closeBlocks, if_neg (not_lt.2 hindent)]

/-! ## The next token -/

theorem turn_of_dropStale {s₁ s₂ : Scanner} (h₁ : s.dropStale = .ok s₁)
    (h₂ : s₁.skipBlanks.dropStale = .ok s₂) :
    s.turn = (s₂.unwind s₂.cursor.column).fetchAt := by
  rw [turn, h₁]
  show s₁.fetch = _
  rw [fetch, h₂]
  rfl

theorem turn_along (hquiet : ∀ p ∈ s.keyStarts, p.2.required = false) {n : Nat}
    {next : List Char} (h : s.cursor.rest = List.replicate n ' ' ++ next)
    (hnext : TokenStart next) :
    ∃ ks : List (Nat × KeyStart), ks ⊆ s.keyStarts ∧
      s.turn = (({ s with cursor := s.cursor.along n next, keyStarts := ks } : Scanner).unwind
        (s.cursor.column + n : Nat)).fetchAt := by
  have hplace : s.cursor.steps n = s.cursor.along n next := by
    have hplace := Cursor.steps_along h fun x hx => by rw [List.eq_of_mem_replicate hx]; rfl
    rwa [List.length_replicate] at hplace
  have hmark : s.cursor.peek ≠ some '\uFEFF' := peek_ne_mark h
    (fun hmem => absurd (List.eq_of_mem_replicate hmem) (by decide)) hnext
  -- Key starts are dropped twice: before the blanks are passed over, and behind them.
  have hdrop := dropStale_of_quiet hquiet
  have hquiet' : ∀ p ∈ s.keyStarts.filter fun p => !s.isStale p.2, p.2.required = false :=
    fun p hp => hquiet p (List.mem_filter.1 hp).1
  have hsub : s.keyStarts.filter (fun p => !s.isStale p.2) ⊆ s.keyStarts :=
    fun p hp => (List.mem_filter.1 hp).1
  generalize s.keyStarts.filter (fun p => !s.isStale p.2) = ks at hdrop hquiet' hsub
  have hskip : ({ s with keyStarts := ks } : Scanner).skipBlanks =
      { s with cursor := s.cursor.along n next, keyStarts := ks } :=
    skipBlanks_eq hmark (by rw [← hplace]; exact toNextToken_spaces h hnext _ _ _)
  have hdrop' := dropStale_of_quiet
    (s := { s with cursor := s.cursor.along n next, keyStarts := ks }) hquiet'
  exact ⟨_, fun p hp => hsub (List.mem_filter.1 hp).1,
    turn_of_dropStale hdrop (by rw [hskip]; exact hdrop')⟩

/-- On the same line nothing changes but the place; key starts may be dropped. -/
theorem turn_sameLine (hquiet : ∀ p ∈ s.keyStarts, p.2.required = false) {n : Nat}
    {next : List Char} (h : s.cursor.rest = List.replicate n ' ' ++ next)
    (hnext : TokenStart next) (hindent : s.flow ≠ 0 ∨ s.indent ≤ s.cursor.column + n) :
    ∃ ks : List (Nat × KeyStart), ks ⊆ s.keyStarts ∧
      s.turn = ({ s with cursor := s.cursor.along n next, keyStarts := ks } : Scanner).fetchAt := by
  obtain ⟨ks, hsub, hturn⟩ := turn_along hquiet h hnext
  rw [unwind_eq_self (by simpa using hindent)] at hturn
  exact ⟨ks, hsub, hturn⟩

/-- Right after a token the next one is fetched where the scanner is, with its key starts. -/
theorem turn_here (hfresh : ∀ p ∈ s.keyStarts, s.isStale p.2 = false)
    (hnext : TokenStart s.cursor.rest) (hindent : s.flow ≠ 0 ∨ s.indent ≤ s.cursor.column) :
    s.turn = s.fetchAt := by
  have hskip : s.skipBlanks = s :=
    @skipBlanks_eq s s.keyAllowed s.cursor
      (peek_ne_mark (w := []) rfl (by simp) hnext) (toNextToken_spaces (n := 0) rfl hnext _ _ _)
  have hdrop := dropStale_of_fresh hfresh
  rw [turn_of_dropStale hdrop (by rw [hskip, hdrop]), unwind_eq_self hindent]

/-- A scanner at a token on a new line. -/
structure Ready (s : Scanner) (next : List Char) (column : Nat) (open_ : List Int)
    (words : List Word) : Prop where
  rest : s.cursor.rest = next
  column : s.cursor.column = column
  flow : s.flow = 0
  starts : s.keyStarts = []
  allowed : s.keyAllowed = true
  blocks : s.blocks = open_
  words : s.words = words
  done : s.done = false

/-- A scanner between tokens outside brackets: it is where the last token ends or, after a plain
scalar, at the start of a new line, and no key has to begin at its key starts. -/
structure Paused (s : Scanner) (rest : List Char) : Prop where
  flow : s.flow = 0
  done : s.done = false
  quiet : ∀ p ∈ s.keyStarts, p.2.required = false
  place : s.cursor.rest = rest ∧ (∀ p ∈ s.keyStarts, p.2.line ≤ s.cursor.line) ∨
    ∃ n next, rest = newLine n ++ next ∧ TokenStart next ∧ s.cursor.rest = next ∧
      s.cursor.column = n ∧ s.keyAllowed = true ∧ ∀ p ∈ s.keyStarts, p.2.line < s.cursor.line

theorem newLine_inj {m n : Nat} {r t : List Char} (hr : TokenStart r) (ht : TokenStart t)
    (h : newLine m ++ r = newLine n ++ t) : m = n ∧ r = t := by
  replace h : List.replicate m ' ' ++ r = List.replicate n ' ' ++ t := (List.cons.inj h).2
  induction m generalizing n with
  | zero =>
    cases n with
    | zero => exact ⟨rfl, h⟩
    | succ n =>
      rw [List.replicate_zero, List.nil_append] at h
      exact absurd rfl (hr ' ' (by rw [h]; rfl)).1
  | succ m ih =>
    cases n with
    | zero =>
      rw [List.replicate_zero, List.nil_append] at h
      exact absurd rfl (ht ' ' (by rw [← h]; rfl)).1
    | succ n =>
      obtain ⟨h₁, h₂⟩ := ih (List.cons.inj h).2
      exact ⟨congrArg _ h₁, h₂⟩

/-- The scanner at a new line, before blocks are closed. -/
theorem exists_dropStale_newLine {n : Nat} {next : List Char} (h : s.Paused (newLine n ++ next))
    (hnext : TokenStart next) :
    ∃ s₁ c, s.dropStale = .ok s₁ ∧
      s₁.skipBlanks.dropStale = .ok { s with cursor := c, keyAllowed := true, keyStarts := [] } ∧
      c.rest = next ∧ c.column = n := by
  have hdrop := dropStale_of_quiet h.quiet
  have hsub : s.keyStarts.filter (fun p => !s.isStale p.2) ⊆ s.keyStarts :=
    fun p hp => (List.mem_filter.1 hp).1
  generalize s.keyStarts.filter (fun p => !s.isStale p.2) = ks at hdrop hsub
  -- All key starts are on earlier lines, so none is left.
  have hgone {c : Cursor} (hc : ∀ p ∈ s.keyStarts, p.2.line < c.line) :
      ({ s with cursor := c, keyAllowed := true, keyStarts := ks } : Scanner).dropStale =
        .ok { s with cursor := c, keyAllowed := true, keyStarts := [] } := by
    rw [dropStale_of_quiet fun p hp => h.quiet p (hsub hp)]
    have hfilter : ks.filter (fun p => !({ s with
        cursor := c, keyAllowed := true, keyStarts := ks } : Scanner).isStale p.2) = [] := by
      rw [List.filter_eq_nil_iff]
      intro p hp
      have hline := hc p (hsub hp)
      rw [isStale]
      dsimp only
      rw [show (p.2.line != c.line) = true from bne_iff_ne.2 hline.ne, Bool.true_or]
      decide
    dsimp only at hfilter ⊢
    rw [hfilter]
  rcases h.place with ⟨hrest, hlines⟩ | ⟨m, next', heq, hnext', hrest, hcolumn, hallowed, hlines⟩
  · -- before the line break, which is passed over now
    have hplace := Cursor.steps_newLine hrest
    have hskip : ({ s with keyStarts := ks } : Scanner).skipBlanks =
        { s with cursor := s.cursor.step.steps n, keyAllowed := true, keyStarts := ks } := by
      refine skipBlanks_eq (s := { s with keyStarts := ks })
        (peek_ne_mark hrest (by simp [newLine]) hnext) ?_
      dsimp only
      rw [h.flow, hrest]
      exact toNextToken_newLine hrest hnext _ _
    refine ⟨_, s.cursor.step.steps n, hdrop, ?_, ?_, ?_⟩
    · rw [hskip, hgone]
      intro p hp
      rw [hplace]
      exact Nat.lt_succ_of_le (hlines p hp)
    · rw [hplace]
    · rw [hplace]
  · -- behind it, where a plain scalar has left the scanner
    obtain ⟨rfl, rfl⟩ := newLine_inj hnext hnext' heq
    have hskip : ({ s with keyStarts := ks } : Scanner).skipBlanks =
        { s with cursor := s.cursor, keyAllowed := true, keyStarts := ks } := by
      refine skipBlanks_eq (s := { s with keyStarts := ks })
        (peek_ne_mark (w := []) hrest (by simp) hnext) ?_
      rw [← hallowed]
      exact toNextToken_spaces (n := 0) hrest hnext _ _ _
    refine ⟨_, s.cursor, hdrop, ?_, hrest, hcolumn⟩
    rw [hskip, hgone hlines]

theorem ready_unwind {next : List Char} {n : Nat} (hrest : s.cursor.rest = next)
    (hcolumn : s.cursor.column = n) (hflow : s.flow = 0) (hstarts : s.keyStarts = [])
    (hallowed : s.keyAllowed = true) (hdone : s.done = false) :
    (s.unwind n).Ready next n (closeAll n s.blocks s.words).1 (closeAll n s.blocks s.words).2 := by
  obtain ⟨hblocks, hwords⟩ := unwind_spec hflow (n : Int)
  obtain ⟨h₁, h₂, h₃, h₄, h₅⟩ := s.unwind_frame n
  exact ⟨by rw [h₁, hrest], by rw [h₁, hcolumn], by rw [h₂, hflow], by rw [h₃, hstarts],
    by rw [h₄, hallowed], hblocks, hwords, by rw [h₅, hdone]⟩

/-- **On a new line** every key start is gone, a key may begin, and the blocks are closed that are
indented more. -/
theorem turn_newLine {n : Nat} {next : List Char} (h : s.Paused (newLine n ++ next))
    (hnext : TokenStart next) :
    ∃ t : Scanner, s.turn = t.fetchAt ∧
      t.Ready next n (closeAll n s.blocks s.words).1 (closeAll n s.blocks s.words).2 := by
  obtain ⟨s₁, c, h₁, h₂, hrest, hcolumn⟩ := exists_dropStale_newLine h hnext
  refine ⟨_, turn_of_dropStale h₁ h₂, ?_⟩
  have hready := ready_unwind
    (s := { s with cursor := c, keyAllowed := true, keyStarts := [] }) hrest hcolumn h.flow rfl rfl
    h.done
  dsimp only
  rw [hcolumn]
  exact hready

/-! ## The end of the text -/

/-- With nothing left, all blocks are closed. -/
theorem fetchAt_end (hpeek : s.cursor.peek = none) (hflow : s.flow = 0)
    (hquiet : ∀ p ∈ s.keyStarts, p.2.required = false) :
    ∃ t : Scanner, s.fetchAt = .ok t ∧ t.done = true ∧
      t.words = (closeAll (-1) s.blocks s.words).2 ++ [.streamEnd] := by
  obtain ⟨-, -, hstarts, -⟩ := unwind_frame s (-1)
  have hfetch : s.fetchAt = s.fetchEnd := by
    unfold fetchAt
    dsimp only
    rw [hpeek]
  rw [hfetch, fetchEnd, dropKeyStart_of_quiet (by rw [hstarts]; exact hquiet)]
  refine ⟨_, rfl, rfl, ?_⟩
  rw [← (unwind_spec hflow (-1)).2]
  simp [words, pushHere, push]

theorem turn_nil (h : s.Paused []) :
    ∃ t : Scanner, s.turn = .ok t ∧ t.done = true ∧
      t.words = (closeAll (-1) s.blocks s.words).2 ++ [.streamEnd] := by
  have hrest : s.cursor.rest = [] := by
    rcases h.place with h | ⟨n, next, heq, -⟩
    · exact h.1
    · cases heq
  obtain ⟨ks, hsub, hturn⟩ :=
    turn_along h.quiet (show s.cursor.rest = List.replicate 0 ' ' ++ [] from hrest)
      (by simp [TokenStart])
  generalize hu : ({ s with cursor := s.cursor.along 0 [], keyStarts := ks } : Scanner) = u at hturn
  have hflow : u.flow = 0 := by rw [← hu]; exact h.flow
  obtain ⟨hcursor, hflow', hstarts, -⟩ := unwind_frame u (s.cursor.column + 0 : Nat)
  obtain ⟨t, hfetch, hdone, hwords⟩ := fetchAt_end
    (s := u.unwind (s.cursor.column + 0 : Nat)) (by rw [hcursor, ← hu]; rfl) (by rw [hflow', hflow])
    (by rw [hstarts, ← hu]; exact fun p hp => h.quiet p (hsub hp))
  -- Blocks are closed down to the column and then all of them, which is closing all at once.
  obtain ⟨hblocks, hwords'⟩ := unwind_spec hflow (s.cursor.column + 0 : Nat)
  refine ⟨t, hturn.trans hfetch, hdone, ?_⟩
  rw [hwords, hblocks, hwords', closeAll_closeAll (by omega), ← hu]
  rfl

/-- **At the end of the text** all blocks are closed, and there is nothing more. -/
theorem turn_end {rest : List Char} (h : s.Paused rest) (hrest : Ends rest) :
    ∃ t : Scanner, s.turn = .ok t ∧ t.done = true ∧
      t.words = (closeAll (-1) s.blocks s.words).2 ++ [.streamEnd] := by
  rcases hrest with rfl | rfl
  · exact turn_nil h
  · rw [← List.append_nil (newLine 0)] at h
    obtain ⟨t, hturn, ht⟩ := turn_newLine h (by simp [TokenStart])
    obtain ⟨u, hfetch, hdone, hwords⟩ := fetchAt_end (s := t) (by rw [Cursor.peek, ht.rest]; rfl)
      ht.flow (by simp [ht.starts])
    refine ⟨u, hturn.trans hfetch, hdone, ?_⟩
    rw [hwords, ht.blocks, ht.words, closeAll_closeAll (by decide)]

end Scanner

end Storyline.Yaml
