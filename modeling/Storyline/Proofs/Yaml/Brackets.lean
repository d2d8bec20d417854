import Storyline.Proofs.Yaml.Blame
import Storyline.Proofs.Yaml.Layout
import Storyline.Proofs.Yaml.Nodes

/-!
# How many brackets may be open

A text of opening brackets alone shows where the room for collections ends. Up to there the end of
the text is met where a value should stand, which is a problem, and beyond no tree is read for want
of room.

## Main results

* `tokenize_brackets`: the tokens of such a text
* `value_brackets`: what reading them comes to
* `load_brackets_iff`: exactly beyond the room for collections there is no value for want of it
-/

namespace Storyline.Yaml

namespace Scanner

/-! ## Scanning -/

/-- A scanner in a text of opening brackets, `n` of them read and `left` still to be read. -/
structure Opening (s : Scanner) (left n : Nat) : Prop where
  rest : s.cursor.rest = List.replicate left '['
  flow : s.flow = n
  done : s.done = false
  indent : s.indent = -1
  quiet : ∀ p ∈ s.keyStarts, p.2.required = false
  words : s.words = List.replicate n .flowSequenceStart

variable {s : Scanner} {left n : Nat}

theorem tokenStart_brackets (left : Nat) : TokenStart (List.replicate left '[') := by
  intro x hx
  rw [List.eq_of_mem_replicate (List.mem_of_mem_head? hx)]
  decide

/-- At the next bracket nothing has changed but the key starts, of which some may be dropped. -/
theorem Opening.exists_fetchAt (h : s.Opening left n) :
    ∃ t : Scanner, s.turn = t.fetchAt ∧ t.Opening left n := by
  obtain ⟨ks, hks, hturn⟩ := turn_sameLine (n := 0) h.quiet h.rest (tokenStart_brackets left)
    (.inr (by rw [h.indent]; omega))
  exact ⟨_, hturn, rfl, h.flow, h.done, h.indent, fun p hp => h.quiet p (hks hp), h.words⟩

theorem Opening.exists_turn (h : s.Opening (left + 1) n) :
    ∃ t, s.turn = .ok t ∧ t.Opening left (n + 1) := by
  obtain ⟨t, hturn, ht⟩ := h.exists_fetchAt
  obtain ⟨ks, hmark, hks⟩ := exists_markKeyStart ht.quiet
  have hfetch : t.fetchAt = .ok { ({ t with
      keyStarts := ks } : Scanner).take .flowSequenceStart 1 with
        flow := t.flow + 1, keyAllowed := true } := by
    rw [(fetchAt_bracket ht.rest).1 rfl, fetchOpening, hmark]
    rfl
  have hplace : t.cursor.steps 1 = t.cursor.along 1 (List.replicate left '[') :=
    Cursor.step_inline ht.rest (by decide)
  refine ⟨_, hturn.trans hfetch, ?_, congrArg (· + 1) ht.flow, ht.done, ht.indent, ?_, ?_⟩
  · show (t.cursor.steps 1).rest = _
    rw [hplace, Cursor.along]
  · intro p hp
    rcases hks p hp with hp | ⟨-, -, hrequired⟩
    · exact ht.quiet p hp
    · rw [← Bool.not_eq_true]
      -- Without a block no key has to begin anywhere.
      intro hp
      have hindent := (hrequired hp).2
      rw [ht.indent] at hindent
      omega
  · show (t.push .flowSequenceStart t.cursor.line).words = _
    rw [words_push, ht.words, List.replicate_succ']

theorem Opening.exists_end (h : s.Opening 0 n) :
    ∃ t, s.turn = .ok t ∧ t.done = true ∧
      t.words = List.replicate n .flowSequenceStart ++ [.streamEnd] := by
  obtain ⟨t, hturn, ht⟩ := h.exists_fetchAt
  have hfetch : t.fetchAt = t.fetchEnd := by
    have hpeek : t.cursor.peek = none := by
      rw [Cursor.peek, ht.rest]
      rfl
    unfold fetchAt
    dsimp only
    rw [hpeek]
  rw [fetchEnd, unwind_eq_self (.inr (le_of_eq ht.indent)),
    dropKeyStart_of_quiet ht.quiet] at hfetch
  refine ⟨_, hturn.trans hfetch, rfl, ?_⟩
  show (t.push .streamEnd t.cursor.line).words = _
  rw [words_push, ht.words]

theorem Opening.exists_runs (h : s.Opening left n) :
    ∃ t, Runs (left + 1) s t ∧ t.done = true ∧
      t.words = List.replicate (n + left) .flowSequenceStart ++ [.streamEnd] := by
  induction left generalizing s n with
  | zero =>
    obtain ⟨t, hturn, ht⟩ := h.exists_end
    exact ⟨t, .head h.done hturn (.refl t), ht⟩
  | succ left ih =>
    obtain ⟨t, hturn, ht⟩ := h.exists_turn
    obtain ⟨u, hruns, hdone, hwords⟩ := ih ht
    exact ⟨u, .head h.done hturn hruns, hdone, by rw [hwords, Nat.add_right_comm]; rfl⟩

end Scanner

theorem tokenize_brackets (n : Nat) : ∃ tokens, tokenize (List.replicate n '[') = (tokens, none) ∧
    tokens.map Token.word = List.replicate n .flowSequenceStart ++ [.streamEnd] := by
  have hstart : Scanner.Opening { cursor := .ofText (List.replicate n '[') } n 0 :=
    ⟨rfl, rfl, rfl, rfl, List.forall_mem_nil _, rfl⟩
  obtain ⟨t, hruns, hdone, hwords⟩ := hstart.exists_runs
  obtain ⟨given, hrun⟩ := Scanner.run_of_runs hruns 1 0
  refine ⟨t.tokens.toList, ?_, by rw [← Nat.zero_add n]; exact hwords⟩
  rw [tokenize, List.length_replicate, hrun, Scanner.run, if_pos hdone]

/-! ## Reading -/

namespace Node

/-- The fault at which the reading of `n` opening brackets ends, with `k` collections open. -/
def bracketFault (k n line : Nat) : Fault :=
  if callRoom < 2 * (k + n) then .defect .recursion
  else .problem (.contentExpected Word.streamEnd.name) line

/-- **Opening brackets are read up to the end of the text or up to where the room ends.** -/
theorem value_brackets {n : Nat} {r : Reader} {block indentless : Bool} {fuel : Nat}
    (hwords : r.tokens.map Token.word = List.replicate n .flowSequenceStart ++ [.streamEnd])
    (hroom : 2 * r.depth ≤ callRoom) (hfuel : 2 * n + 1 ≤ fuel) :
    ∃ line, value block indentless fuel r = .error (bracketFault r.depth n line) := by
  induction n generalizing r block indentless fuel with
  | zero =>
    obtain ⟨fuel, rfl⟩ := Nat.exists_eq_add_of_le' (show 1 ≤ fuel by omega)
    obtain ⟨tokens, fault, handles, anchors, depth⟩ := r
    obtain ⟨line, rest, rfl, -⟩ := exists_cons_of_map hwords
    refine ⟨line, ?_⟩
    rw [bracketFault, if_neg (by omega)]
    cases block <;> cases indentless <;> rfl
  | succ n ih =>
    obtain ⟨fuel, rfl⟩ := Nat.exists_eq_add_of_le' (show 2 ≤ fuel by omega)
    obtain ⟨tokens, fault, handles, anchors, depth⟩ := r
    obtain ⟨line, rest, rfl, hrest⟩ := exists_cons_of_map hwords
    have hopen : value block indentless (fuel + 2)
        { tokens := ⟨.flowSequenceStart, line⟩ :: rest, fault, handles, anchors, depth } =
          (do return .sequence .seq (← nested (flowItems true (fuel + 1))) line : Read Node)
            { tokens := rest, fault, handles, anchors, depth } := by
      cases block <;> cases indentless <;> rfl
    have hitems (k : Nat) : flowItems true (fuel + 1)
        { tokens := rest, fault, handles, anchors, depth := k } =
          (do
            let n ← value false false fuel
            return n :: (← flowItems false fuel) : Read (List Node))
            { tokens := rest, fault, handles, anchors, depth := k } := by
      cases n with
      | zero =>
        obtain ⟨line', rest', rfl, -⟩ := exists_cons_of_map hrest
        rfl
      | succ n =>
        obtain ⟨line', rest', rfl, -⟩ := exists_cons_of_map hrest
        rfl
    -- Either there is no room for this bracket, or it is open while the next one is read.
    by_cases hfull : callRoom < 2 * (depth + 1)
    · refine ⟨line, ?_⟩
      rw [hopen, bracketFault, if_pos (by dsimp only; omega)]
      show (nested _ _ >>= _) = _
      rw [nested_of_full hfull]
      rfl
    · have hinside : ∃ line', value false false fuel
          { tokens := rest, fault, handles, anchors, depth := depth + 1 } =
            .error (bracketFault (depth + 1) n line') :=
        ih hrest (by dsimp only; omega) (by omega)
      obtain ⟨line', hread⟩ := hinside
      refine ⟨line', ?_⟩
      rw [hopen]
      show (nested _ _ >>= _) = _
      rw [nested_of_room hfull]
      dsimp only
      rw [hitems]
      show (((value false false fuel _ >>= _) >>= _) >>= _) = _
      rw [hread, bracketFault, bracketFault, Nat.add_assoc, Nat.add_comm 1 n]
      rfl

/-- A document of opening brackets alone. -/
theorem ofTokens?_brackets {n : Nat} {tokens : List Token}
    (hwords : tokens.map Token.word =
      List.replicate (n + 1) .flowSequenceStart ++ [.streamEnd]) :
    ∃ line, Tree.ofTokens? tokens none = .error (bracketFault 0 (n + 1) line) := by
  have hlength : tokens.length = n + 2 := by
    have h := congrArg List.length hwords
    simpa using h
  have hvalue : ∃ line, value true false (4 * tokens.length + 8)
      { tokens := tokens, fault := none, handles := defaultHandles } =
        .error (bracketFault 0 (n + 1) line) :=
    value_brackets hwords (Nat.zero_le _) (by omega)
  obtain ⟨line, hread⟩ := hvalue
  refine ⟨line, ?_⟩
  obtain ⟨line', rest, rfl, -⟩ := exists_cons_of_map hwords
  show ((value true false _ _ >>= _) >>= _) = _
  rw [hread]
  rfl

end Node

/-! ## Values -/

theorem load_nil : load [] = .ok .null := rfl

theorem exists_load_brackets (n : Nat) :
    ∃ line, load (List.replicate (n + 1) '[') = .error (Node.bracketFault 0 (n + 1) line) := by
  have hreadable : ((List.replicate (n + 1) '[').zipIdx.find? fun p => !isReadable p.1) = none :=
    find?_unreadable_eq_none_iff.2 fun c hc => by
      rw [List.eq_of_mem_replicate hc]
      decide
  obtain ⟨tokens, htokens, hwords⟩ := tokenize_brackets (n + 1)
  obtain ⟨line, hread⟩ := Node.ofTokens?_brackets hwords
  refine ⟨line, ?_⟩
  rw [load, hreadable]
  dsimp only
  rw [htokens]
  dsimp only
  rw [hread]
  rfl

/-- **Exactly beyond the room for collections, brackets have no value for want of room.** -/
theorem load_brackets_iff {n : Nat} :
    load (List.replicate n '[') = .error (.defect .recursion) ↔ callRoom < 2 * n := by
  cases n with
  | zero => exact iff_of_false (fun h => nomatch load_nil.symm.trans h) (by decide)
  | succ n =>
    obtain ⟨line, hload⟩ := exists_load_brackets n
    rw [hload, Node.bracketFault, Nat.zero_add]
    split
    · next hfull => exact iff_of_true rfl hfull
    · next hroom => exact iff_of_false nofun hroom

theorem load_brackets_ne_map (n : Nat) (entries : List (Value × Value)) :
    load (List.replicate n '[') ≠ .ok (.map entries) := by
  cases n with
  | zero => exact fun h => nomatch load_nil.symm.trans h
  | succ n =>
    obtain ⟨line, hload⟩ := exists_load_brackets n
    rw [hload]
    exact nofun

end Storyline.Yaml
