import Storyline.Proofs.Yaml.Marks

/-!
# The tokens of written values

A value stands after a mark: a scalar on the same line, a collection on lines of its own, which are
indented more than the mark. Whatever the text, a scanner that comes to the end of the value has its
words, except that blocks are closed only when the next line comes.

## Main definitions

* `LineStart`, `Follows`: what may stand after a value
* `Left`: a scanner after a value
* `Beside`: a scanner after a mark and a space
* `Inside`: a scanner between brackets

## Main results

* `leads_scalar`: coming past a scalar
* `leads_opening`, `leads_members`, `leads_closing`: coming past brackets and what they hold
-/

namespace Storyline.Yaml

/-- Whether a text begins with a token and with no mark of a document. -/
structure LineStart (r : List Char) : Prop where
  token : TokenStart r
  hyphens : ['-', '-', '-'].isPrefixOf r = false
  points : ['.', '.', '.'].isPrefixOf r = false

/-- What may stand after a value in a block: nothing, or a line that is not indented more. -/
def Follows (indent : Nat) (rest : List Char) : Prop :=
  rest = [] ∨ ∃ n next, n ≤ indent ∧ rest = newLine n ++ next ∧ LineStart next

theorem Ends.follows {rest : List Char} (h : Ends rest) (indent : Nat) : Follows indent rest := by
  rcases h with rfl | rfl
  · exact .inl rfl
  · exact .inr ⟨0, [], Nat.zero_le indent, (List.append_nil _).symm, by simp [TokenStart], rfl, rfl⟩

theorem Follows.endsPlain {indent : Nat} {rest : List Char} (h : Follows indent rest)
    (flow : Bool) : endsPlain flow rest = true := by
  rcases h with rfl | ⟨n, next, -, rfl, -⟩ <;> rfl

theorem Follows.head?_ne {indent : Nat} {rest : List Char} (h : Follows indent rest) :
    rest.head? ≠ some '\'' := by
  rcases h with rfl | ⟨n, next, -, rfl, -⟩
  · simp
  · rw [newLine]
    simp

theorem ScalarText.tokenStart {flow : Bool} {text : List Char} {word : Word}
    (h : ScalarText flow text word) (rest : List Char) : TokenStart (text ++ rest) := by
  cases h with
  | plain h =>
    obtain ⟨x, r, rfl, hx, hmark⟩ := h.head
    have hinline := isInline_eq_true (h.isInline List.mem_cons_self)
    intro y hy
    cases hy
    refine ⟨?_, ?_, hinline.1, ?_⟩
    · rintro rfl
      exact absurd hx (by decide)
    · rintro rfl
      exact absurd hmark (by simp [startsWithMark])
    · exact beq_eq_false_iff_ne.1 hinline.2
  | quoted hquote h =>
    intro y hy
    cases hy
    rcases hquote with rfl | rfl <;> decide

theorem ScalarText.lineStart {text : List Char} {word : Word} (h : ScalarText false text word)
    {rest : List Char} (hrest : rest.head? = some ':') : LineStart (text ++ rest) := by
  refine ⟨h.tokenStart rest, ?_, ?_⟩ <;> cases h with
  | plain h =>
    refine Scanner.isPrefixOf_append ?_ (by first | exact h.hyphens | exact h.points) (by
      rw [hrest]
      decide)
    obtain ⟨x, r, rfl, -⟩ := h.head
    exact List.cons_ne_nil x r
  | quoted hquote h =>
    rw [← Bool.not_eq_true, List.isPrefixOf_iff_prefix, List.cons_append, List.cons_prefix_cons]
    rcases hquote with rfl | rfl <;> exact fun h => absurd h.1 (by decide)

theorem ScalarText.length_pos {flow : Bool} {text : List Char} {word : Word}
    (h : ScalarText flow text word) : 0 < text.length := by
  cases h with
  | plain h =>
    obtain ⟨x, r, rfl, -⟩ := h.head
    exact Nat.succ_pos _
  | quoted => exact Nat.succ_pos _

theorem ScalarText.word_ne {flow : Bool} {text : List Char} {word : Word}
    (h : ScalarText flow text word) : word ≠ .streamEnd := by
  cases h <;> nofun

namespace Scanner

variable {s t : Scanner} {m n : Nat} {i : Int} {base : List Int} {ws : List Word}
  {rest : List Char}

/-! ## After a value -/

/-- A scanner after a value in a block that is indented by `indent`. Blocks inside the value may
still be open; they are closed when the next line comes. -/
structure Left (s : Scanner) (rest : List Char) (indent : Nat) (base : List Int)
    (words : List Word) : Prop where
  paused : s.Paused rest
  closed : ∀ m : Int, m ≤ indent →
    closeAll m s.blocks s.words = closeAll m ((indent : Int) :: base) words

/-- Marking a key start adds one on the present line at most. -/
theorem exists_markKeyStart (hquiet : ∀ p ∈ s.keyStarts, p.2.required = false) :
    ∃ ks, s.markKeyStart = .ok { s with keyStarts := ks } ∧ ∀ p ∈ ks, p ∈ s.keyStarts ∨
      p.1 = s.flow ∧ p.2.line = s.cursor.line ∧
        (p.2.required = true → s.flow = 0 ∧ s.indent = s.cursor.column) := by
  rw [markKeyStart]
  split
  · rw [dropKeyStart_of_quiet hquiet]
    refine ⟨_, rfl, ?_⟩
    intro p hp
    rcases List.mem_cons.1 hp with rfl | hp
    · refine .inr ⟨rfl, rfl, fun h => ?_⟩
      have h' := (Bool.and_eq_true _ _).mp h
      exact ⟨beq_iff_eq.1 h'.1, beq_iff_eq.1 h'.2⟩
    · exact .inl (List.mem_filter.1 hp).1
  · exact ⟨_, rfl, fun p hp => .inl hp⟩

/-- Where a plain scalar ends, a scanner is between tokens. -/
theorem exists_halts {indent : Nat} (h : Follows indent rest) {c : Cursor} (hc : c.rest = rest) :
    ∃ ended d, Halts false (indent + 1) c ended d ∧
      (d = c ∨ ∃ n next, rest = newLine n ++ next ∧ TokenStart next ∧ d.rest = next ∧
        d.column = n ∧ ended = true ∧ d.line = c.line + 1) := by
  rcases h with rfl | ⟨n, next, hn, rfl, hnext⟩
  · exact ⟨false, c, halts_here _ _ (by simp [hc]), .inl rfl⟩
  · refine ⟨true, c.step.steps n, halts_newLine hc (by omega)
      (fun x hx => ⟨(hnext.token x hx).1, (hnext.token x hx).2.2.1⟩) ?_, .inr ⟨n, next, rfl,
        hnext.token, ?_, ?_, rfl, ?_⟩⟩
    · have hstep : c.step.rest = List.replicate n ' ' ++ next := by
        rw [Cursor.rest_step, hc]
        rfl
      cases n with
      | zero =>
        rw [atDocumentMark, hstep, List.replicate_zero, List.nil_append, hnext.hyphens,
          hnext.points]
        rfl
      | succ n => exact atDocumentMark_eq_false hstep (by decide)
    all_goals rw [Cursor.steps_newLine hc]

/-- A scanner at what stands after a mark on the line of the mark, right of the indentation. -/
structure Beside (s : Scanner) (next : List Char) (indent : Nat) (base : List Int)
    (words : List Word) : Prop where
  rest : s.cursor.rest = next
  flow : s.flow = 0
  done : s.done = false
  starts : s.keyStarts = []
  column : s.indent < s.cursor.column
  blocks : s.blocks = (indent : Int) :: base
  words : s.words = words

theorem Marked.exists_beside {fresh : Bool} {indent : Nat}
    (h : s.Marked fresh indent (' ' :: rest) base ws) (hnext : TokenStart rest) :
    ∃ t : Scanner, s.turn = t.fetchAt ∧ t.Beside rest indent base ws := by
  have hindent : s.indent = indent := (List.cons.inj h.blocks).1
  have hcolumn := h.column
  obtain ⟨ks, hks, hturn⟩ := turn_sameLine (n := 1) (by simp [h.starts]) h.rest hnext
    (.inr (by omega))
  rw [h.starts] at hks
  obtain rfl := List.subset_nil.1 hks
  refine ⟨_, hturn, by rw [Cursor.along], h.flow, h.done, rfl, ?_, h.blocks, h.words⟩
  dsimp only [Cursor.along]
  omega

/-- Right of the indentation no key has to begin. -/
theorem Beside.exists_markKeyStart {indent : Nat} (h : s.Beside rest indent base ws) :
    ∃ ks, s.markKeyStart = .ok { s with keyStarts := ks } ∧
      ∀ p ∈ ks, p.2.required = false ∧ p.2.line = s.cursor.line := by
  obtain ⟨ks, hmark, hks⟩ := Scanner.exists_markKeyStart (s := s) (by simp [h.starts])
  rw [h.starts] at hks
  refine ⟨ks, hmark, fun p hp => ?_⟩
  obtain ⟨-, hline, hrequired⟩ := (hks p hp).resolve_left (by simp)
  refine ⟨?_, hline⟩
  rw [← Bool.not_eq_true]
  exact fun hp => absurd (hrequired hp).2 h.column.ne

/-- **After a mark, a scalar is fetched.** -/
theorem leads_scalar {fresh : Bool} {indent : Nat} {text : List Char} {word : Word}
    (h : s.Marked fresh indent (' ' :: text ++ rest) base ws) (htext : ScalarText false text word)
    (hrest : Follows indent rest) :
    Leads 1 True s (Left · rest indent base (ws ++ [word])) := by
  obtain ⟨t, hturn, ht⟩ := h.exists_beside (htext.tokenStart rest)
  obtain ⟨ks, hmark, hks⟩ := ht.exists_markKeyStart
  have hindent : t.indent = indent := (List.cons.inj ht.blocks).1
  obtain ⟨ended, d, hhalts, hd⟩ := exists_halts hrest (Cursor.rest_steps_append ht.rest)
  obtain ⟨ended', d', hfetch, hd'⟩ := fetchAt_scalar (by rwa [ht.flow]) ht.rest
    (hrest.endsPlain _) hrest.head?_ne (.inr ht.column.le) hmark
    (by rw [ht.flow, hindent]; exact hhalts)
  have hlines : ∀ p ∈ ks, p.2.line ≤ (t.cursor.steps text.length).line := by
    intro p hp
    rw [(hks p hp).2]
    exact Cursor.line_le_steps _ t.cursor
  refine leads_head h.done (hturn.trans hfetch)
    (leads_refl ⟨⟨ht.flow, ht.done, fun p hp => (hks p hp).1, ?_⟩, ?_⟩)
  · show d'.rest = rest ∧ (∀ p ∈ ks, p.2.line ≤ d'.line) ∨ ∃ n next, rest = newLine n ++ next ∧
      TokenStart next ∧ d'.rest = next ∧ d'.column = n ∧ ended' = true ∧
        ∀ p ∈ ks, p.2.line < d'.line
    have hhere : d' = t.cursor.steps text.length →
        d'.rest = rest ∧ ∀ p ∈ ks, p.2.line ≤ d'.line := by
      rintro rfl
      exact ⟨Cursor.rest_steps_append ht.rest, hlines⟩
    -- A plain scalar may have taken the line break after it; the others stop at their end.
    rcases hd' with ⟨rfl, rfl⟩ | ⟨-, hd'⟩
    · rcases hd with hd | ⟨n, next, heq, hnext, hdrest, hdcolumn, hended, hline⟩
      · exact .inl (hhere hd)
      · exact .inr ⟨n, next, heq, hnext, hdrest, hdcolumn, hended, fun p hp => by
          rw [hline]
          exact Nat.lt_succ_of_le (hlines p hp)⟩
    · exact .inl (hhere hd')
  · intro m hm
    show closeAll m t.blocks (t.push word t.cursor.line).words = _
    rw [words_push, ht.blocks, ht.words]

/-! ## Brackets -/

/-- A scanner between brackets. -/
structure Inside (s : Scanner) (rest : List Char) (blocks : List Int) (words : List Word) :
    Prop where
  rest : s.cursor.rest = rest
  flow : s.flow = 1
  done : s.done = false
  quiet : ∀ p ∈ s.keyStarts, p.2.required = false
  lines : ∀ p ∈ s.keyStarts, p.2.line ≤ s.cursor.line
  blocks : s.blocks = blocks
  words : s.words = words

theorem fetchAt_bracket {ch : Char} (hrest : s.cursor.rest = ch :: rest) :
    (ch = '[' → s.fetchAt = s.fetchOpening .flowSequenceStart) ∧
      (ch = '{' → s.fetchAt = s.fetchOpening .flowMappingStart) ∧
      (ch = ']' → s.fetchAt = s.fetchClosing .flowSequenceEnd) ∧
      (ch = '}' → s.fetchAt = s.fetchClosing .flowMappingEnd) ∧
      (ch = ',' → s.fetchAt = s.fetchFlowEntry) := by
  have hpeek : s.cursor.peek = some ch := by rw [Cursor.peek, hrest]; rfl
  have hdocument (h : ch ≠ '-' ∧ ch ≠ '.') : (s.cursor.column == 0 && atDocumentMark s.cursor) =
      false := by rw [atDocumentMark_eq_false hrest h, Bool.and_false]
  unfold fetchAt
  dsimp only
  rw [hpeek]
  dsimp only
  refine ⟨?_, ?_, ?_, ?_, ?_⟩ <;>
  · rintro rfl
    rw [hdocument (by decide)]
    rfl

/-- The brackets with the words of their opening and their closing. -/
def brackets : List ((Char × Word) × (Char × Word)) :=
  [(('[', .flowSequenceStart), (']', .flowSequenceEnd)),
    (('{', .flowMappingStart), ('}', .flowMappingEnd))]

theorem squareBrackets_mem :
    (('[', Word.flowSequenceStart), (']', Word.flowSequenceEnd)) ∈ brackets :=
  List.mem_cons_self

theorem curlyBrackets_mem :
    (('{', Word.flowMappingStart), ('}', Word.flowMappingEnd)) ∈ brackets :=
  List.mem_cons_of_mem _ List.mem_cons_self

theorem tokenStart_bracket {op cl : Char × Word} (h : (op, cl) ∈ brackets) {ch : Char}
    (hch : ch = op.1 ∨ ch = cl.1) : (∀ r, TokenStart (ch :: r)) ∧ isInline ch = true := by
  rw [brackets, List.mem_cons, List.mem_singleton] at h
  suffices hall : ch ≠ ' ' ∧ ch ≠ '#' ∧ isBreak ch = false ∧ ch ≠ '\uFEFF' ∧ isInline ch = true by
    refine ⟨fun r x hx => ?_, hall.2.2.2.2⟩
    cases hx
    exact ⟨hall.1, hall.2.1, hall.2.2.1, hall.2.2.2.1⟩
  rcases h with h | h <;> cases h <;> rcases hch with rfl | rfl <;> decide

theorem leads_opening {fresh : Bool} {indent : Nat} {op cl : Char × Word}
    (hop : (op, cl) ∈ brackets) (h : s.Marked fresh indent (' ' :: op.1 :: rest) base ws) :
    Leads 1 True s (Inside · rest ((indent : Int) :: base) (ws ++ [op.2])) := by
  obtain ⟨hnext, hinline⟩ := tokenStart_bracket hop (.inl rfl)
  obtain ⟨t, hturn, ht⟩ := h.exists_beside (hnext rest)
  obtain ⟨ks, hmark, hks⟩ := ht.exists_markKeyStart
  have hfetch : t.fetchAt = .ok { ({ t with keyStarts := ks } : Scanner).take op.2 1 with
      flow := t.flow + 1, keyAllowed := true } := by
    obtain ⟨hsquare, hbrace, -⟩ := fetchAt_bracket ht.rest
    have hfetch : t.fetchAt = t.fetchOpening op.2 := by
      rw [brackets, List.mem_cons, List.mem_singleton] at hop
      rcases hop with hop | hop <;> cases hop
      · exact hsquare rfl
      · exact hbrace rfl
    rw [hfetch, fetchOpening, hmark]
    rfl
  have hplace : t.cursor.steps 1 = t.cursor.along 1 rest := Cursor.step_inline ht.rest hinline
  refine leads_head h.done (hturn.trans hfetch)
    (leads_refl ⟨?_, ?_, ht.done, fun p hp => (hks p hp).1, ?_, ht.blocks, ?_⟩)
  · show (t.cursor.steps 1).rest = rest
    rw [hplace, Cursor.along]
  · show t.flow + 1 = 1
    rw [ht.flow]
  · intro p hp
    show p.2.line ≤ (t.cursor.steps 1).line
    rw [(hks p hp).2, hplace, Cursor.along]
  · show (t.push op.2 t.cursor.line).words = _
    rw [words_push, ht.words]

theorem Inside.exists_turn {blocks : List Int} {next : List Char}
    (h : s.Inside (List.replicate n ' ' ++ next) blocks ws) (hnext : TokenStart next) :
    ∃ t : Scanner, s.turn = t.fetchAt ∧ t.Inside next blocks ws := by
  obtain ⟨ks, hks, hturn⟩ := turn_sameLine h.quiet h.rest hnext (.inl (by rw [h.flow]; decide))
  exact ⟨_, hturn, by rw [Cursor.along], h.flow, h.done, fun p hp => h.quiet p (hks hp),
    fun p hp => h.lines p (hks hp), h.blocks, h.words⟩

theorem leads_closing {indent : Nat} {op cl : Char × Word} (hcl : (op, cl) ∈ brackets)
    (h : s.Inside (cl.1 :: rest) ((indent : Int) :: base) ws) :
    Leads 1 True s (Left · rest indent base (ws ++ [cl.2])) := by
  obtain ⟨hnext, hinline⟩ := tokenStart_bracket hcl (.inr rfl)
  obtain ⟨t, hturn, ht⟩ := h.exists_turn (n := 0) (hnext rest)
  have hfetch : t.fetchAt = .ok { ({ t with
      keyStarts := t.keyStarts.filter fun p => p.1 != t.flow } : Scanner).take cl.2 1 with
        flow := t.flow - 1, keyAllowed := false } := by
    obtain ⟨-, -, hsquare, hbrace, -⟩ := fetchAt_bracket ht.rest
    -- Both closing brackets are fetched in one way.
    have hfetch : t.fetchAt = t.fetchClosing cl.2 := by
      rw [brackets, List.mem_cons, List.mem_singleton] at hcl
      rcases hcl with hcl | hcl <;> cases hcl
      · exact hsquare rfl
      · exact hbrace rfl
    rw [hfetch, fetchClosing, dropKeyStart_of_quiet ht.quiet]
    rfl
  have hplace : t.cursor.steps 1 = t.cursor.along 1 rest := Cursor.step_inline ht.rest hinline
  refine leads_head h.done (hturn.trans hfetch) (leads_refl ⟨⟨?_, ht.done, ?_, .inl ⟨?_, ?_⟩⟩, ?_⟩)
  · show t.flow - 1 = 0
    rw [ht.flow]
  · exact fun p hp => ht.quiet p (List.mem_filter.1 hp).1
  · show (t.cursor.steps 1).rest = rest
    rw [hplace, Cursor.along]
  · intro p hp
    show p.2.line ≤ (t.cursor.steps 1).line
    rw [hplace]
    exact ht.lines p (List.mem_filter.1 hp).1
  · intro m hm
    show closeAll m t.blocks (t.push cl.2 t.cursor.line).words = _
    rw [words_push, ht.blocks, ht.words]

theorem leads_comma {blocks : List Int} (h : s.Inside (',' :: rest) blocks ws) :
    Leads 1 True s (Inside · rest blocks (ws ++ [.flowEntry])) := by
  obtain ⟨t, hturn, ht⟩ := h.exists_turn (n := 0) (by
    intro x hx
    cases hx
    decide)
  have hfetch : t.fetchAt = .ok { ({ t with
      keyStarts := t.keyStarts.filter fun p => p.1 != t.flow } : Scanner).take .flowEntry 1 with
        keyAllowed := true } := by
    rw [(fetchAt_bracket ht.rest).2.2.2.2 rfl, fetchFlowEntry, dropKeyStart_of_quiet ht.quiet]
    rfl
  have hplace : t.cursor.steps 1 = t.cursor.along 1 rest := Cursor.step_inline ht.rest (by decide)
  refine leads_head h.done (hturn.trans hfetch) (leads_refl
    ⟨?_, ht.flow, ht.done, fun p hp => ht.quiet p (List.mem_filter.1 hp).1, ?_, ht.blocks, ?_⟩)
  · show (t.cursor.steps 1).rest = rest
    rw [hplace, Cursor.along]
  · intro p hp
    show p.2.line ≤ (t.cursor.steps 1).line
    rw [hplace]
    exact ht.lines p (List.mem_filter.1 hp).1
  · show (t.push .flowEntry t.cursor.line).words = _
    rw [words_push, ht.words]

theorem leads_member {blocks : List Int} {text : List Char} {word : Word}
    (h : s.Inside (List.replicate n ' ' ++ (text ++ rest)) blocks ws)
    (htext : ScalarText true text word) (hrest : rest.head? = some ',' ∨ rest.head? = some ']') :
    Leads 1 True s (Inside · rest blocks (ws ++ [word])) := by
  obtain ⟨t, hturn, ht⟩ := h.exists_turn (htext.tokenStart rest)
  obtain ⟨ks, hmark, hks⟩ := exists_markKeyStart ht.quiet
  have hflow : (t.flow != 0) = true := by rw [ht.flow]; rfl
  obtain ⟨r, hr⟩ : ∃ r, rest = ',' :: r ∨ rest = ']' :: r := by
    rcases hrest with h | h <;> obtain ⟨r, hr⟩ := List.head?_eq_some_iff.1 h
    · exact ⟨r, .inl hr⟩
    · exact ⟨r, .inr hr⟩
  have hends : endsPlain true rest = true := by
    rcases hr with rfl | rfl <;> simp [endsPlain]
  obtain ⟨ended, d, hfetch, hd⟩ := fetchAt_scalar (by rwa [hflow]) ht.rest (by rwa [hflow])
    (by rcases hrest with h | h <;> rw [h] <;> decide) (.inl (by rw [ht.flow]; decide)) hmark
    (halts_here _ _ (by
      rw [Cursor.rest_steps_append ht.rest]
      intro x hx
      rcases hr with rfl | rfl <;> cases hx <;> decide))
  have hd' : d = t.cursor.steps text.length := hd.elim (fun h => h.2) fun h => h.2
  -- Between brackets no key has to begin, whatever the column.
  have hrequired : t.flow ≠ 0 := by rw [ht.flow]; decide
  refine leads_head h.done (hturn.trans hfetch) (leads_refl
    ⟨?_, ht.flow, ht.done, ?_, ?_, ht.blocks, ?_⟩)
  · show d.rest = rest
    rw [hd', Cursor.rest_steps_append ht.rest]
  · intro p hp
    rcases hks p hp with hp | hp
    · exact ht.quiet p hp
    · rw [← Bool.not_eq_true]
      exact fun h => hrequired (hp.2.2 h).1
  · intro p hp
    show p.2.line ≤ d.line
    rw [hd']
    have hline := Cursor.line_le_steps text.length t.cursor
    rcases hks p hp with hp | hp
    · exact (ht.lines p hp).trans hline
    · rw [hp.2.1]
      exact hline
  · show (t.push word t.cursor.line).words = _
    rw [words_push, ht.words]

/-- **The members of a list between brackets**, up to the closing bracket. -/
theorem leads_members {indent : Nat} {texts : List (List Char)} {words : List Word}
    (htexts : List.Forall₂ (ScalarText true) texts words) (hne : texts ≠ [])
    (h : s.Inside (List.replicate n ' ' ++ (List.intercalate [',', ' '] texts ++ ']' :: rest))
      ((indent : Int) :: base) ws) :
    Leads (2 * texts.length) True s (Left · rest indent base
      (ws ++ words.intersperse .flowEntry ++ [.flowSequenceEnd])) := by
  induction htexts generalizing s ws n with
  | nil => exact absurd rfl hne
  | @cons text word texts words htext htexts ih =>
    cases htexts with
    | nil =>
      rw [List.intercalate_singleton] at h
      refine ((leads_member h htext (.inr rfl)).bind fun t ht =>
        leads_closing squareBrackets_mem ht).weaken le_rfl (by simp) fun t ht => ?_
      simpa using ht
    | @cons text' word' texts words htext' htexts =>
      rw [List.intercalate_cons_cons, List.append_assoc, List.append_assoc] at h
      refine (((leads_member h htext (.inl rfl)).bind fun t ht => leads_comma ht).bind fun t ht =>
        ih (List.cons_ne_nil _ _) (n := 1) ht).weaken ?_ (by simp) fun t ht => ?_
      · simp only [List.length_cons]
        omega
      · rw [List.intersperse_cons_cons]
        simpa using ht

end Scanner

end Storyline.Yaml
