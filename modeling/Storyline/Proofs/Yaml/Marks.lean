import Storyline.Proofs.Yaml.Scalar

/-!
# Marks and keys

The hyphen of an item, the question mark and the colon of an entry, and a key on the line of its
colon. A key whose written text is too long is no longer a key when its colon is met, and then the
text cannot be cut into tokens at all.

## Main definitions

* `Stuck`: a scanner at a fault
* `Leads`: a scanner comes to a place, or to a fault
* `Marked`: a scanner after a mark
* `Keyed`: a scanner at the colon after a key

## Main results

* `exists_marked`, `leads_simpleKey`: coming past a mark in front of a line, or a key with its colon
-/

namespace Storyline.Yaml.Scanner

variable {s t : Scanner} {m n : Nat} {p p' : Prop} {P Q : Scanner → Prop}

/-! ## Coming to a place -/

/-- A scanner at a fault, with the text not at its end. -/
structure Stuck (s : Scanner) : Prop where
  done : s.done = false
  words : .streamEnd ∉ s.words
  fault : ∃ f, s.turn = .error f

/-- With at most `n` tokens a scanner comes to a place if `p` holds, and else to a fault. -/
def Leads (n : Nat) (p : Prop) (s : Scanner) (P : Scanner → Prop) : Prop :=
  ∃ m t, m ≤ n ∧ Runs m s t ∧ (p ∧ P t ∨ ¬p ∧ t.Stuck)

theorem leads_refl (h : P s) : Leads n True s P :=
  ⟨0, s, n.zero_le, .refl s, .inl ⟨trivial, h⟩⟩

theorem leads_of_stuck (hp : ¬p) (h : s.Stuck) : Leads n p s P :=
  ⟨0, s, n.zero_le, .refl s, .inr ⟨hp, h⟩⟩

theorem leads_head (hdone : s.done = false) (ht : s.turn = .ok t) (h : Leads n p t P) :
    Leads (n + 1) p s P := by
  obtain ⟨m, u, hm, hruns, hu⟩ := h
  exact ⟨m + 1, u, Nat.succ_le_succ hm, .head hdone ht hruns, hu⟩

theorem Leads.bind (h : Leads m p s P) (h' : ∀ t, P t → Leads n p' t Q) :
    Leads (m + n) (p ∧ p') s Q := by
  obtain ⟨i, t, hi, hruns, ⟨hp, ht⟩ | ⟨hp, ht⟩⟩ := h
  · obtain ⟨j, u, hj, hruns', hu⟩ := h' t ht
    refine ⟨i + j, u, Nat.add_le_add hi hj, hruns.trans hruns', ?_⟩
    rcases hu with ⟨hp', hu⟩ | ⟨hp', hu⟩
    · exact .inl ⟨⟨hp, hp'⟩, hu⟩
    · exact .inr ⟨fun h => hp' h.2, hu⟩
  · exact ⟨i, t, hi.trans (Nat.le_add_right m n), hruns, .inr ⟨fun h => hp h.1, ht⟩⟩

theorem Leads.weaken (h : Leads m p s P) (hmn : m ≤ n) (hp : p ↔ p') (hP : ∀ t, P t → Q t) :
    Leads n p' s Q := by
  obtain ⟨i, t, hi, hruns, ht⟩ := h
  refine ⟨i, t, hi.trans hmn, hruns, ?_⟩
  rw [← hp]
  exact ht.imp (fun h => ⟨h.1, hP t h.2⟩) id

/-! ## Words -/

theorem words_push (s : Scanner) (word : Word) (line : Nat) :
    (s.push word line).words = s.words ++ [word] := by
  rw [words, push, Array.toList_push, List.map_append]
  rfl

theorem words_insert {i : Nat} (tokens : Array Token) (word : Word) (line : Nat)
    {before after : List Word} (hwords : tokens.toList.map Token.word = before ++ after)
    (hi : i = before.length) :
    (tokens.insertIdxIfInBounds i ⟨word, line⟩).toList.map Token.word =
      before ++ word :: after := by
  have hsize : tokens.size = before.length + after.length := by
    rw [← Array.length_toList, ← List.length_map (f := Token.word), hwords, List.length_append]
  rw [Array.insertIdxIfInBounds, dif_pos (by omega), Array.toList_insertIdx, List.map_insertIdx,
    hwords, hi]
  clear hwords hi hsize
  induction before with
  | nil => rfl
  | cons w before ih =>
    rw [List.cons_append, List.length_cons, List.insertIdx_succ_cons, ih]
    rfl

/-! ## Blocks that a line opens -/

/-- The word of the block that a line opens if it is indented more than the open block. -/
def opening (word : Word) (n : Nat) (i : Int) : List Word :=
  if i < n then [word] else []

/-- The blocks around the block of a line. -/
def around (n : Nat) (i : Int) (base : List Int) : List Int :=
  if i < n then i :: base else base

theorem opening_self (word : Word) (n : Nat) : opening word n n = [] :=
  if_neg (lt_irrefl _)

theorem around_self (n : Nat) (base : List Int) : around n n base = base :=
  if_neg (lt_irrefl _)

/-- A scanner after a mark in a block that is indented by `indent`. After the colon of a key on one
line a collection begins on a new line, and after any other mark it begins after a space. -/
structure Marked (s : Scanner) (fresh : Bool) (indent : Nat) (rest : List Char) (base : List Int)
    (words : List Word) : Prop where
  rest : s.cursor.rest = rest
  flow : s.flow = 0
  starts : s.keyStarts = []
  done : s.done = false
  column : indent < s.cursor.column
  next : fresh = false → s.keyAllowed = true ∧ s.cursor.column = indent + 1
  blocks : s.blocks = (indent : Int) :: base
  words : s.words = words

variable {i : Int} {base : List Int} {ws : List Word} {rest : List Char}

theorem openBlock_spec (place line : Nat) (word : Word) (hblocks : s.blocks = i :: base)
    (hi : i ≤ n) {before after : List Word} (hwords : s.words = before ++ after)
    (hplace : place = before.length) :
    (s.openBlock n place line word).blocks = (n : Int) :: around n i base ∧
      (s.openBlock n place line word).words = before ++ opening word n i ++ after := by
  obtain ⟨hindent, hindents⟩ := List.cons.inj hblocks
  rw [openBlock, around, opening, ← hindent]
  split
  · refine ⟨congrArg (fun r => (n : Int) :: s.indent :: r) hindents, ?_⟩
    rw [List.append_assoc]
    exact words_insert _ _ _ hwords hplace
  · next hn =>
    refine ⟨?_, by rw [hwords, List.append_nil]⟩
    rw [hblocks, show i = n by omega]

/-- Opening a block changes nothing else. -/
theorem openBlock_frame (s : Scanner) (column place line : Nat) (word : Word) :
    (s.openBlock column place line word).cursor = s.cursor ∧
      (s.openBlock column place line word).flow = s.flow ∧
      (s.openBlock column place line word).keyStarts = s.keyStarts ∧
      (s.openBlock column place line word).keyAllowed = s.keyAllowed ∧
      (s.openBlock column place line word).done = s.done := by
  rw [openBlock]
  split <;> exact ⟨rfl, rfl, rfl, rfl, rfl⟩

theorem dropKeyStart_of_nil (h : s.keyStarts = []) : s.dropKeyStart = .ok s := by
  rw [dropKeyStart_of_quiet (by simp [h]), h, List.filter_nil, ← h]

/-! ## Marks in front of a line -/

/-- The marks in front of a line, with their words and the words of the blocks that they open. -/
def lineMarks : List (Char × Word × Word) :=
  [('-', .blockEntry, .blockSequenceStart), ('?', .key, .blockMappingStart),
    (':', .value, .blockMappingStart)]

theorem fetchAt_mark {ch : Char} (hrest : s.cursor.rest = ch :: rest)
    (hsep : rest.head?.all isSeparator = true) (hflow : s.flow = 0) :
    (ch = '-' → s.fetchAt = s.fetchBlockEntry) ∧ (ch = '?' → s.fetchAt = s.fetchKey) ∧
      (ch = ':' → s.fetchAt = s.fetchValue) := by
  have hpeek : s.cursor.peek = some ch := by rw [Cursor.peek, hrest]; rfl
  have hapart : s.cursor.endsAtOr isSeparator 1 = true := by
    rw [Cursor.endsAtOr, Cursor.peekAt, hrest, ← hsep]
    cases rest <;> rfl
  -- A hyphen with a separator after it is no mark of a document, which are three in a row.
  have hdocument : atDocumentMark s.cursor = false := by
    have hnot {q : Char} (hq : q = '-' ∨ q = '.') :
        [q, q, q].isPrefixOf s.cursor.rest = false := by
      have hhead : rest.head? ≠ some q := by
        intro hhead
        rw [hhead] at hsep
        rcases hq with rfl | rfl <;> exact absurd hsep (by decide)
      rw [hrest]
      exact isPrefixOf_append (t := [ch]) (List.cons_ne_nil ch []) (Bool.and_false _) hhead
    rw [atDocumentMark, hnot (.inl rfl), hnot (.inr rfl)]
    rfl
  unfold fetchAt
  dsimp only
  rw [hpeek]
  dsimp only
  rw [hdocument, hapart, hflow, Bool.and_false]
  refine ⟨?_, ?_, ?_⟩
  · rintro rfl
    rfl
  · rintro rfl
    rfl
  · rintro rfl
    rfl

/-- At a mark in front of a line the mark is fetched, and a block is opened if need be. -/
theorem exists_marked {ch : Char} {mark block : Word} (hmark : (ch, mark, block) ∈ lineMarks)
    (h : s.Ready (ch :: rest) n (i :: base) ws) (hi : i ≤ n)
    (hsep : rest.head?.all isSeparator = true) :
    ∃ t, s.fetchAt = .ok t ∧
      t.Marked false n rest (around n i base) (ws ++ opening block n i ++ [mark]) := by
  obtain ⟨hhyphen, hquestion, hcolon⟩ := fetchAt_mark h.rest hsep h.flow
  obtain ⟨hcursor, hflow, hstarts, -, hdone⟩ :=
    openBlock_frame s s.cursor.column s.tokens.size s.cursor.line block
  obtain ⟨hblocks, hwords⟩ := openBlock_spec (n := n) s.tokens.size s.cursor.line block
    h.blocks hi (h.words.trans (List.append_nil ws).symm) (by
      rw [← h.words, words, List.length_map, Array.length_toList])
  rw [h.column] at hcursor hflow hstarts hdone
  have hopen : s.openHere block =
      s.openBlock n s.tokens.size s.cursor.line block := by rw [openHere, h.column]
  generalize s.openBlock n s.tokens.size s.cursor.line block = u at *
  have hdrop : u.dropKeyStart = .ok u := dropKeyStart_of_nil (hstarts.trans h.starts)
  have hallowed : (s.flow == 0 && !s.keyAllowed) = false := by
    rw [h.allowed, Bool.not_true, Bool.and_false]
  have hflow' : (s.flow == 0) = true := by rw [h.flow]; rfl
  have hfetch : s.fetchAt = .ok { u.take mark 1 with keyAllowed := true } := by
    rw [lineMarks, List.mem_cons, List.mem_cons, List.mem_singleton] at hmark
    rcases hmark with hmark | hmark | hmark <;> cases hmark
    · -- a hyphen
      rw [hhyphen rfl, fetchBlockEntry, hallowed, if_neg Bool.false_ne_true, hflow', if_pos rfl,
        hopen]
      dsimp only
      rw [hdrop]
      rfl
    · -- a question mark
      rw [hquestion rfl, fetchKey, hallowed, if_neg Bool.false_ne_true, hflow', if_pos rfl, hopen]
      dsimp only
      rw [hdrop]
      show (Except.ok _ : Except Fault Scanner) = _
      rw [hflow, hflow']
    · -- a colon on a line of its own: no key start is left
      rw [hcolon rfl, fetchValue, h.starts]
      show (if s.flow == 0 && !s.keyAllowed then _ else _ : Except Fault Scanner) = _
      rw [hallowed, if_neg Bool.false_ne_true, hflow', if_pos rfl, hopen]
      dsimp only
      rw [hdrop]
      show (Except.ok _ : Except Fault Scanner) = _
      rw [hflow, hflow']
  have hinline : isInline ch = true := by
    have hall : lineMarks.all (fun p => isInline p.1) = true := by decide
    exact List.all_eq_true.1 hall _ hmark
  have hplace : u.cursor.steps 1 = s.cursor.along 1 rest := by
    rw [hcursor]
    exact Cursor.step_inline h.rest hinline
  have hcolumn : (u.cursor.steps 1).column = n + 1 := by
    rw [hplace, Cursor.along, h.column]
  refine ⟨_, hfetch, ?_, ?_, ?_, ?_, ?_, fun _ => ⟨rfl, hcolumn⟩, hblocks, ?_⟩
  · show (u.cursor.steps 1).rest = rest
    rw [hplace, Cursor.along]
  · exact hflow.trans h.flow
  · exact hstarts.trans h.starts
  · exact hdone.trans h.done
  · show n < (u.cursor.steps 1).column
    omega
  · show (u.push mark u.cursor.line).words = _
    rw [words_push, hwords, List.append_nil]

/-! ## A key on the line of its colon -/

theorem turn_stale {k : KeyStart} (hstarts : s.keyStarts = [(0, k)]) (hk : s.isStale k = true)
    (hrest : s.cursor.rest = ':' :: rest) (hsep : rest.head?.all isSeparator = true)
    (hflow : s.flow = 0) (hallowed : s.keyAllowed = false) (hcolumn : s.indent ≤ s.cursor.column) :
    ∃ f, s.turn = .error f := by
  -- Where a key has to begin, dropping its start is the fault; elsewhere the colon is, later.
  cases hrequired : k.required with
  | true =>
    refine ⟨.problem .missingColon s.cursor.line, ?_⟩
    rw [turn, dropStale, hstarts]
    show (if (s.isStale k && k.required || false) = true then _ else _) >>= _ = _
    rw [hk, hrequired]
    rfl
  | false =>
    have hdrop : s.dropStale = .ok { s with keyStarts := [] } := by
      rw [dropStale_of_quiet (by simpa [hstarts] using hrequired), hstarts, List.filter_cons, hk]
      rfl
    have hnext : TokenStart s.cursor.rest := by
      rw [hrest]
      intro x hx
      cases hx
      decide
    have hturn := turn_here (s := { s with keyStarts := [] }) (by simp) hnext (.inr hcolumn)
    obtain ⟨-, -, hvalue⟩ := fetchAt_mark (s := { s with keyStarts := [] }) hrest hsep hflow
    refine ⟨.problem .valueNotAllowed s.cursor.line, ?_⟩
    have hsame : s.turn = ({ s with keyStarts := [] } : Scanner).turn := by
      rw [turn, turn, hdrop, dropStale_of_fresh (s := { s with keyStarts := [] }) (by simp)]
    rw [hsame, hturn, hvalue rfl, fetchValue]
    show (if s.flow == 0 && !s.keyAllowed then _ else _ : Except Fault Scanner) = _
    rw [hflow, hallowed]
    rfl

theorem endsPlain_colon (hsep : rest.head?.all isSeparator = true) :
    endsPlain false (':' :: rest) = true := by
  cases rest with
  | nil => rfl
  | cons d rest =>
    have hd : isSeparator d = true := hsep
    simp [endsPlain, hd]

/-- A scanner at the colon after a key of some length that begins in column `n`. Whether the key
still counts depends on the length alone. -/
structure Keyed (s : Scanner) (length n : Nat) (rest : List Char) (blocks : List Int)
    (before : List Word) (word : Word) : Prop where
  rest : s.cursor.rest = ':' :: rest
  column : s.cursor.column = n + length
  flow : s.flow = 0
  allowed : s.keyAllowed = false
  done : s.done = false
  blocks : s.blocks = blocks
  words : s.words = before ++ [word]
  start : ∃ k : KeyStart, s.keyStarts = [(0, k)] ∧ k.token = before.length ∧ k.column = n ∧
    s.isStale k = decide (keyLimit < length)

/-- A key is fetched up to its colon. -/
theorem exists_keyed {key : List Char} {word : Word}
    (h : t.Ready (key ++ ':' :: rest) n (i :: base) ws) (hi : i ≤ n)
    (hkey : ScalarText false key word) (hinline : ∀ x ∈ key, isInline x = true)
    (hsep : rest.head?.all isSeparator = true) :
    ∃ u, t.fetchAt = .ok u ∧ u.Keyed key.length n rest (i :: base) ws word := by
  have hindent : t.indent = i := (List.cons.inj h.blocks).1
  have hcolumn : t.indent ≤ t.cursor.column := by rw [hindent, h.column]; exact hi
  -- The key start that the key leaves.
  obtain ⟨k, hmark, htoken, hindex, hline, hplace⟩ : ∃ k : KeyStart,
      t.markKeyStart = .ok { t with keyStarts := [(0, k)] } ∧ k.token = t.tokens.size ∧
        k.index = t.cursor.index ∧ k.line = t.cursor.line ∧ k.column = n := by
    refine ⟨⟨t.tokens.size, t.flow == 0 && t.indent == (t.cursor.column : Int), t.cursor.index,
      t.cursor.line, t.cursor.column⟩, ?_, rfl, rfl, rfl, h.column⟩
    rw [markKeyStart, h.allowed, if_pos rfl, dropKeyStart_of_nil h.starts]
    show (Except.ok _ : Except Fault Scanner) = _
    rw [h.starts, h.flow, h.allowed]
  have hflow : (t.flow != 0) = false := by rw [h.flow]; rfl
  obtain ⟨ended, d, hfetch, hd⟩ := fetchAt_scalar (by rwa [hflow]) h.rest
    (by rw [hflow]; exact endsPlain_colon hsep) (by simp) (.inr hcolumn) hmark
    (halts_here _ _ (by
      rw [Cursor.rest_steps_append h.rest]
      intro x hx
      cases hx
      decide))
  have hd' : ended = false ∧ d = t.cursor.along key.length (':' :: rest) := by
    rw [← Cursor.steps_along h.rest hinline]
    exact hd.elim id id
  obtain ⟨rfl, rfl⟩ := hd'
  refine ⟨_, hfetch, rfl, congrArg (· + key.length) h.column, h.flow, rfl, h.done, h.blocks, ?_, k,
    rfl, ?_, hplace, ?_⟩
  · rw [← h.words]
    exact words_push t word t.cursor.line
  · rw [htoken, ← h.words, words, List.length_map, Array.length_toList]
  · show (k.line != t.cursor.line ||
      decide (keyLimit < t.cursor.index + key.length - k.index)) = _
    rw [hline, hindex, bne_self_eq_false, Bool.false_or, Nat.add_sub_cancel_left]

namespace Keyed

variable {length : Nat} {word : Word}

theorem indent_le (h : s.Keyed length n rest (i :: base) ws word) (hi : i ≤ n) :
    s.indent ≤ s.cursor.column := by
  have hindent : s.indent = i := (List.cons.inj h.blocks).1
  rw [hindent, h.column]
  push_cast
  omega

/-- At the colon of a key that is not too long the key and the colon are put in their places. -/
theorem exists_marked (h : s.Keyed length n rest (i :: base) ws word) (hi : i ≤ n)
    (hsep : rest.head?.all isSeparator = true) (hlimit : length ≤ keyLimit) :
    ∃ t, s.turn = .ok t ∧ t.Marked true n rest (around n i base)
      (ws ++ opening .blockMappingStart n i ++ [.key, word, .value]) := by
  obtain ⟨k, hstarts, htoken, hplace, hstale⟩ := h.start
  have hturn : s.turn = s.fetchValue := by
    rw [turn_here _ _ (.inr (h.indent_le hi))]
    · exact (fetchAt_mark h.rest hsep h.flow).2.2 rfl
    · rw [hstarts]
      intro p hp
      rw [List.mem_singleton.1 hp, hstale]
      exact decide_eq_false (not_lt.2 hlimit)
    · rw [h.rest]
      intro x hx
      cases hx
      decide
  -- The word of the key goes in front of what was read as the key.
  generalize hv : ({ s with
    keyStarts := [], tokens := s.tokens.insertIdxIfInBounds k.token ⟨.key, k.line⟩ } :
      Scanner) = v
  have hwords : v.words = ws ++ [.key, word] := by
    rw [← hv]
    exact words_insert s.tokens .key k.line h.words htoken
  obtain ⟨hblocks, hwords'⟩ := openBlock_spec k.token k.line .blockMappingStart
    (show v.blocks = i :: base by rw [← hv]; exact h.blocks) hi hwords htoken
  obtain ⟨hcursor, hflow, hstarts', -, hdone⟩ :=
    openBlock_frame v n k.token k.line .blockMappingStart
  have hfetch : s.fetchValue = .ok
      { (v.openBlock n k.token k.line .blockMappingStart).take .value 1 with
        keyAllowed := false } := by
    have hlookup : s.keyStarts.lookup s.flow = some k := by rw [hstarts, h.flow]; rfl
    have hfilter : s.keyStarts.filter (fun p => p.1 != s.flow) = [] := by
      rw [hstarts, h.flow]
      rfl
    have hflow₀ : (s.flow == 0) = true := beq_iff_eq.2 h.flow
    rw [fetchValue, hlookup]
    dsimp only
    rw [hfilter, hflow₀, if_pos rfl, ← hv, hplace]
    rfl
  generalize v.openBlock n k.token k.line .blockMappingStart = w at *
  have hcursor' : w.cursor.steps 1 = s.cursor.along 1 rest := by
    rw [hcursor, ← hv]
    exact Cursor.step_inline h.rest (by decide)
  rw [← hv] at hflow hstarts' hdone
  refine ⟨_, hturn.trans hfetch, ?_, hflow.trans h.flow, hstarts', hdone.trans h.done, ?_,
    (by rintro ⟨⟩), hblocks, ?_⟩
  · show (w.cursor.steps 1).rest = rest
    rw [hcursor', Cursor.along]
  · show n < (w.cursor.steps 1).column
    rw [hcursor', Cursor.along, h.column]
    dsimp only
    omega
  · show (w.push .value w.cursor.line).words = _
    rw [words_push, hwords']
    simp

/-- At the colon of a key that is too long there is no key, and no place for one. -/
theorem exists_fault (h : s.Keyed length n rest (i :: base) ws word) (hi : i ≤ n)
    (hsep : rest.head?.all isSeparator = true) (hlimit : keyLimit < length) :
    ∃ f, s.turn = .error f := by
  obtain ⟨k, hstarts, -, -, hstale⟩ := h.start
  exact turn_stale hstarts (hstale.trans (decide_eq_true hlimit)) h.rest hsep h.flow h.allowed
    (h.indent_le hi)

end Keyed

/-- **A key on the line of its colon** opens a block if need be. If it is too long, the text cannot
be cut into tokens. -/
theorem leads_simpleKey {key : List Char} {word : Word} (hdone : s.done = false)
    (hturn : s.turn = t.fetchAt) (h : t.Ready (key ++ ':' :: rest) n (i :: base) ws) (hi : i ≤ n)
    (hkey : ScalarText false key word) (hinline : ∀ x ∈ key, isInline x = true)
    (hsep : rest.head?.all isSeparator = true) (hword : .streamEnd ∉ ws ++ [word]) :
    Leads 2 (key.length ≤ keyLimit) s (Marked · true n rest (around n i base)
      (ws ++ opening .blockMappingStart n i ++ [.key, word, .value])) := by
  obtain ⟨u, hfetch, hu⟩ := exists_keyed h hi hkey hinline hsep
  refine leads_head hdone (hturn.trans hfetch) (n := 1) ?_
  by_cases hlimit : key.length ≤ keyLimit
  · obtain ⟨v, hturn', hv⟩ := hu.exists_marked hi hsep hlimit
    rw [eq_true hlimit]
    exact leads_head hu.done hturn' (leads_refl hv)
  · exact leads_of_stuck hlimit
      ⟨hu.done, by rwa [hu.words], hu.exists_fault hi hsep (not_le.1 hlimit)⟩

end Storyline.Yaml.Scanner
