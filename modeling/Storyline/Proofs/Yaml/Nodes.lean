import Storyline.Proofs.Yaml.Tokens
import Storyline.Yaml.Node

/-!
# The nodes of written data

The words of data, without anchors and tags, are read as a tree of nodes of the same shape.

## Main definitions

* `Spells`: a tree of nodes stands for data

## Main results

* `consumes_valueWords`: the words of data are read as its tree
* `ofTokens?_eq`: the tokens of a mapping are read as its tree
-/

namespace Storyline.Yaml

/-- The text that a string is read back as: between single quotes, line breaks are folded. -/
def rereadChars (s : List Char) : List Char :=
  if styleOf .value s = .single then foldBreaks false s else s

/-- A tree of nodes stands for data. -/
inductive Spells : Value → Node → Prop where
  | bool (b : Bool) (line : Nat) :
    Spells (.bool b) (.scalar .bool (if b then "true" else "false").toList line)
  | int (n : Int) (line : Nat) : Spells (.int n) (.scalar .int (Number.intDigits n) line)
  | float (x : Float) (line : Nat) :
    Spells (.float x) (.scalar .float (Number.render floatLayout x).toList line)
  | str (s : String) (line : Nat) : Spells (.str s) (.scalar .str (rereadChars s.toList) line)
  | list {items : List Value} {ns : List Node} (hlength : items.length = ns.length)
    (h : ∀ p ∈ items.zip ns, Spells p.1 p.2) (line : Nat) :
    Spells (.list items) (.sequence .seq ns line)
  | map {entries : List (Value × Value)} {ns : List (Node × Node)}
    (hlength : entries.length = ns.length) (hkeys : ∀ p ∈ entries.zip ns, Spells p.1.1 p.2.1)
    (h : ∀ p ∈ entries.zip ns, Spells p.1.2 p.2.2) (line : Nat) :
    Spells (.map entries) (.mapping .map ns line)

theorem spells_list {vs : List Value} {ns : List Node} (h : List.Forall₂ Spells vs ns)
    (line : Nat) : Spells (.list vs) (.sequence .seq ns line) :=
  .list h.length_eq (fun _ hp => (List.forall₂_iff_zip.1 h).2 hp) line

/-- A pair of nodes stands for an entry. -/
def SpellsEntry (e : Value × Value) (n : Node × Node) : Prop :=
  Spells e.1 n.1 ∧ Spells e.2 n.2

theorem spells_map {es : List (Value × Value)} {ns : List (Node × Node)}
    (h : List.Forall₂ SpellsEntry es ns) (line : Nat) :
    Spells (.map es) (.mapping .map ns line) :=
  .map h.length_eq (fun _ hp => ((List.forall₂_iff_zip.1 h).2 hp).1)
    (fun _ hp => ((List.forall₂_iff_zip.1 h).2 hp).2) line

/-! ## Scalars -/

theorem rereadChars_eq_self {s : List Char} (h : isMultiline s = false) : rereadChars s = s := by
  rw [isMultiline, List.any_eq_false] at h
  rw [rereadChars]
  split
  · refine foldBreaks_eq_self (fun hmem => ?_) (fun hmem => ?_) false
    · exact h _ hmem (by decide)
    · exact h _ hmem (by decide)
  · rfl

theorem isMultiline_of_allowsPlain {bracket : Bool} {s : List Char}
    (h : allowsPlain bracket s = true) : isMultiline s = false := by
  cases s with
  | nil => rfl
  | cons c r =>
    rw [isMultiline, List.any_eq_false]
    intro d hd
    rw [((plainText_of_allowsPlain h (List.cons_ne_nil c r)).shown d hd).2]
    exact Bool.false_ne_true

theorem styleOf_ne_double {place : Place} {s : List Char} (hsingle : allowsSingle s = true)
    (hfeed : '\n' ∉ s) (hreturn : '\r' ∉ s) : styleOf place s ≠ .double := by
  have hbreak : (s.contains '\n' || s.contains '\r') = false := by
    rw [Bool.or_eq_false_iff]
    exact ⟨by simpa using hfeed, by simpa using hreturn⟩
  intro h
  rw [styleOf, hbreak, if_neg Bool.false_ne_true, hsingle, if_pos rfl] at h
  split at h <;> cases h

/-- Wherever a string is written, its word has the same text, and stands for a string. -/
theorem stringWord_eq (place : Place) (s : List Char) :
    ∃ plain, stringWord place s = .scalar (rereadChars s) plain ∧
      Node.scalarTag none (rereadChars s) plain = .str := by
  rw [stringWord]
  rcases styleOf_cases place s with h | ⟨h, hsingle, hfeed, hreturn⟩ | ⟨h, htag, hallow⟩
  · -- Between double quotes the text is kept, and it would be at the place of a value too.
    have hself : rereadChars s = s := by
      rw [rereadChars, if_neg]
      intro hvalue
      rcases styleOf_cases .value s with h' | ⟨-, hsingle, hfeed, hreturn⟩ | ⟨h', -⟩
      · rw [h'] at hvalue
        cases hvalue
      · exact styleOf_ne_double hsingle hfeed hreturn h
      · rw [h'] at hvalue
        cases hvalue
    rw [h, hself]
    exact ⟨false, rfl, rfl⟩
  · -- At the place of a value the string is between single quotes too, or it has one line.
    have hfold : foldBreaks false s = rereadChars s := by
      rcases styleOf_cases .value s with h' | ⟨h', -⟩ | ⟨h', -, hallow⟩
      · exact absurd h' (styleOf_ne_double hsingle hfeed hreturn)
      · rw [rereadChars, if_pos h']
      · have hline := isMultiline_of_allowsPlain hallow
        rw [rereadChars_eq_self hline]
        rw [isMultiline, List.any_eq_false] at hline
        exact foldBreaks_eq_self (fun hmem => hline _ hmem (by decide)) hfeed false
    rw [h, ← hfold]
    exact ⟨false, rfl, rfl⟩
  · rw [h, rereadChars_eq_self (isMultiline_of_allowsPlain hallow)]
    exact ⟨true, rfl, htag⟩

/-- The word of a scalar is a scalar that stands for it. -/
theorem exists_scalar_of_data {v : Value} (hv : Data v) (hscalar : isScalar v = true)
    (place : Place) :
    ∃ text plain, wordOf place v = .scalar text plain ∧
      ∀ line, Spells v (.scalar (Node.scalarTag none text plain) text line) := by
  cases hv with
  | bool b =>
    refine ⟨_, true, rfl, fun line => ?_⟩
    rw [Node.scalarTag, if_pos rfl, ofPlain_bool]
    exact .bool b line
  | int n =>
    refine ⟨_, true, rfl, fun line => ?_⟩
    rw [Node.scalarTag, if_pos rfl, ofPlain_intDigits]
    exact .int n line
  | float x =>
    refine ⟨_, true, rfl, fun line => ?_⟩
    rw [Node.scalarTag, if_pos rfl, ofPlain_render]
    exact .float x line
  | str s =>
    obtain ⟨plain, hword, htag⟩ := stringWord_eq place s.toList
    refine ⟨_, plain, hword, fun line => ?_⟩
    rw [htag]
    exact .str s line
  | list => cases hscalar
  | map => cases hscalar

namespace Node

variable {r : Reader} {ts : List Token} {t : Token} {fuel line d : Nat}

/-! ## Reading words -/

/-- A reader that has room for `d` more collections within each other reads some words, whatever
follows them, and has a result. -/
def Consumes {α : Type} (d : Nat) (m : Read α) (words : List Word) (P : α → Prop) : Prop :=
  ∀ (r : Reader) (ts rest : List Token), 2 * (r.depth + d) ≤ callRoom → ts.map Token.word = words →
    ∃ a, P a ∧ m { r with tokens := ts ++ rest } = .ok (a, { r with tokens := rest })

theorem exists_cons_of_map {word : Word} {words : List Word}
    (h : ts.map Token.word = word :: words) :
    ∃ line ts', ts = ⟨word, line⟩ :: ts' ∧ ts'.map Token.word = words := by
  cases ts with
  | nil => cases h
  | cons t ts =>
    have hcons := List.cons.inj h
    exact ⟨t.line, ts, by rw [← hcons.1], hcons.2⟩

variable {α β : Type} {words words' : List Word} {P : α → Prop} {Q : β → Prop}

theorem Consumes.bind {m : Read α} {f : α → Read β} (h : Consumes d m words P)
    (h' : ∀ a, P a → Consumes d (f a) words' Q) : Consumes d (m >>= f) (words ++ words') Q := by
  intro r ts rest hroom hts
  obtain ⟨ts₁, ts₂, rfl, hts₁, hts₂⟩ := List.map_eq_append_iff.1 hts
  obtain ⟨a, ha, hread⟩ := h r ts₁ (ts₂ ++ rest) hroom hts₁
  obtain ⟨b, hb, hread'⟩ := h' a ha r ts₂ rest hroom hts₂
  refine ⟨b, hb, ?_⟩
  rw [List.append_assoc]
  show (m _ >>= fun p => f p.1 p.2) = _
  rw [hread]
  exact hread'

theorem consumes_pure {a : α} (h : P a) : Consumes d (pure a) [] P := by
  intro r ts rest _ hts
  obtain rfl := List.map_eq_nil_iff.1 hts
  exact ⟨a, h, rfl⟩

/-- What is done at a first word, and what is done after it. -/
theorem Consumes.cons {m : Read α} {m' : Nat → Read α} {word : Word}
    (hm : ∀ (r : Reader) (line : Nat) (ts : List Token),
      m { r with tokens := ⟨word, line⟩ :: ts } = m' line { r with tokens := ts })
    (h : ∀ line, Consumes d (m' line) words P) : Consumes d m (word :: words) P := by
  intro r ts rest hroom hts
  obtain ⟨line, ts', rfl, hts'⟩ := exists_cons_of_map hts
  obtain ⟨a, ha, hread⟩ := h line r ts' rest hroom hts'
  exact ⟨a, ha, (hm r line (ts' ++ rest)).trans hread⟩

/-- What is done at a first word that is still to be read. -/
theorem Consumes.at {m m' : Read α} {word : Word}
    (hm : ∀ (r : Reader) (line : Nat) (ts : List Token),
      m { r with tokens := ⟨word, line⟩ :: ts } = m' { r with tokens := ⟨word, line⟩ :: ts })
    (h : Consumes d m' (word :: words) P) : Consumes d m (word :: words) P := by
  intro r ts rest hroom hts
  obtain ⟨a, ha, hread⟩ := h r ts rest hroom hts
  obtain ⟨line, ts', rfl, -⟩ := exists_cons_of_map hts
  exact ⟨a, ha, (hm r line (ts' ++ rest)).trans hread⟩

/-- What is done at a first word and the word after it, which is still to be read. -/
theorem Consumes.skip {m m' : Read α} {word word' : Word}
    (hm : ∀ (r : Reader) (line line' : Nat) (ts : List Token),
      m { r with tokens := ⟨word, line⟩ :: ⟨word', line'⟩ :: ts } =
        m' { r with tokens := ⟨word', line'⟩ :: ts })
    (h : Consumes d m' (word' :: words) P) : Consumes d m (word :: word' :: words) P := by
  intro r ts rest hroom hts
  obtain ⟨line, ts, rfl, hts'⟩ := exists_cons_of_map hts
  obtain ⟨a, ha, hread⟩ := h r ts rest hroom hts'
  obtain ⟨line', ts', rfl, -⟩ := exists_cons_of_map hts'
  exact ⟨a, ha, (hm r line line' (ts' ++ rest)).trans hread⟩

theorem Consumes.map {m : Read α} {f : α → β} (h : Consumes d m words P)
    (hf : ∀ a, P a → Q (f a)) : Consumes d (do return f (← m)) words Q := by
  have hbind := h.bind (f := fun a => pure (f a)) fun a ha => consumes_pure (hf a ha)
  rwa [List.append_nil] at hbind

/-- What is in a collection is read if there is room for the collection too. -/
theorem Consumes.nested {m : Read α} (h : Consumes d m words P) :
    Consumes (d + 1) (Node.nested m) words P := by
  intro r ts rest hroom hts
  obtain ⟨a, ha, hread⟩ := h { r with depth := r.depth + 1 } ts rest (by dsimp only; omega) hts
  refine ⟨a, ha, ?_⟩
  show (if callRoom < 2 * (r.depth + 1) then _ else _ : Read α) _ = _
  rw [if_neg (by omega)]
  show (m { r with tokens := ts ++ rest, depth := r.depth + 1 } >>= _) = _
  rw [hread]
  rfl

/-! ## Values -/

theorem consumes_scalar {block indentless : Bool} {text : List Char} {plain : Bool}
    {P : Node → Prop} (h : ∀ line, P (.scalar (scalarTag none text plain) text line)) :
    Consumes d (value block indentless (fuel + 1)) [.scalar text plain] P :=
  .cons (fun _ _ _ => rfl) fun line => consumes_pure (h line)

/-- The words that end a value that is left out. -/
def valueEnds : List Word :=
  [.blockEntry, .key, .value, .blockEnd, .flowEntry, .flowSequenceEnd]

theorem Consumes.unless {ends : List Word} (hends : ends ⊆ valueEnds) {block indentless : Bool}
    {P : Node → Prop} (hwords : ∃ word ws, words = word :: ws ∧ word ∉ valueEnds)
    (h : Consumes d (value block indentless fuel) words P) (line : Nat) :
    Consumes d (valueUnless ends block indentless line (fuel + 1)) words P := by
  intro r ts rest hroom hts
  obtain ⟨n, hn, hread⟩ := h r ts rest hroom hts
  obtain ⟨word, ws, rfl, hword⟩ := hwords
  obtain ⟨l, ts', rfl, -⟩ := exists_cons_of_map hts
  refine ⟨n, hn, ?_⟩
  rw [valueUnless]
  show (if ends.contains word = true then _ else _ : Read Node) _ = _
  rw [if_neg fun h => hword (hends (List.contains_iff_mem.1 h))]
  exact hread

theorem exists_wordOf (place : Place) (v : Value) :
    ∃ text plain, wordOf place v = .scalar text plain := by
  cases v with
  | str s =>
    obtain ⟨plain, h, -⟩ := stringWord_eq place s.toList
    exact ⟨_, plain, h⟩
  | _ => exact ⟨_, _, rfl⟩

/-- No value begins with a word that ends one. -/
theorem exists_head_valueWords (v : Value) :
    ∃ word ws, valueWords v = word :: ws ∧ word ∉ valueEnds := by
  cases v with
  | list items =>
    rw [valueWords]
    split <;> exact ⟨_, _, rfl, by decide⟩
  | map entries =>
    rw [valueWords]
    split <;> exact ⟨_, _, rfl, by decide⟩
  | _ =>
    obtain ⟨text, plain, h⟩ := exists_wordOf .value _
    exact ⟨_, [], congrArg ([·]) h, by simp [valueEnds]⟩

/-- The items of a block sequence. -/
theorem consumes_blockItems {vs : List Value} (hv : ∀ v ∈ vs, ∀ {fuel : Nat},
      2 * (valueWords v).length ≤ fuel →
        Consumes d (value true false fuel) (valueWords v) (Spells v))
    (hfuel : 2 * (itemWords vs ++ [Word.blockEnd]).length ≤ fuel) :
    Consumes d (blockItems fuel) (itemWords vs ++ [.blockEnd]) (List.Forall₂ Spells vs) := by
  induction vs generalizing fuel with
  | nil =>
    obtain ⟨fuel, rfl⟩ := Nat.exists_eq_add_of_le' hfuel
    have hpure : Consumes d (pure []) [] (List.Forall₂ Spells []) := consumes_pure .nil
    exact .cons (fun _ _ _ => rfl) fun _ => hpure
  | cons v vs ih =>
    simp only [itemWords, List.cons_append, List.append_assoc, List.length_cons,
      List.length_append] at hfuel ⊢
    obtain ⟨fuel, rfl⟩ := Nat.exists_eq_add_of_le' (show 2 ≤ fuel by omega)
    refine .cons (fun _ _ _ => rfl) fun line => Consumes.bind
      (Consumes.unless (by simp [valueEnds]) (exists_head_valueWords v)
        (hv v List.mem_cons_self (by omega)) line) fun n hn =>
          Consumes.map (ih (fun u hu => hv u (List.mem_cons_of_mem v hu)) ?_) fun ns hns =>
            .cons hn hns
    simp only [List.length_append, List.length_cons, List.length_nil] at hfuel ⊢
    omega

/-- The entries of a block mapping. -/
theorem consumes_blockEntries {es : List (Value × Value)} {w : Value × Value → List Word}
    (hw : ∀ e ∈ es, ∃ k words, e.1 = .str k ∧ w e = .key :: wordOf .key e.1 :: .value :: words ∧
      (∃ word ws, words = word :: ws ∧ word ∉ valueEnds) ∧
        ∀ {fuel : Nat}, 2 * words.length ≤ fuel →
          Consumes d (value true true fuel) words (Spells e.2))
    (hfuel : 2 * (es.flatMap w ++ [Word.blockEnd]).length ≤ fuel) :
    Consumes d (blockEntries fuel) (es.flatMap w ++ [.blockEnd]) (List.Forall₂ SpellsEntry es) := by
  induction es generalizing fuel with
  | nil =>
    obtain ⟨fuel, rfl⟩ := Nat.exists_eq_add_of_le' hfuel
    have hpure : Consumes d (pure []) [] (List.Forall₂ SpellsEntry []) := consumes_pure .nil
    exact .cons (fun _ _ _ => rfl) fun _ => hpure
  | cons e es ih =>
    obtain ⟨k, words, hk, hwords, hhead, hv⟩ := hw e List.mem_cons_self
    obtain ⟨plain, hword, htag⟩ := stringWord_eq .key k.toList
    have hkey : wordOf .key e.1 = .scalar (rereadChars k.toList) plain := by rw [hk]; exact hword
    simp only [List.flatMap_cons, hwords, hkey, List.cons_append, List.append_assoc,
      List.length_append, List.length_cons, List.length_nil] at hfuel ⊢
    obtain ⟨fuel, rfl⟩ := Nat.exists_eq_add_of_le' (show 4 ≤ fuel by omega)
    have hspells : ∀ line, Spells e.1
        (.scalar (scalarTag none (rereadChars k.toList) plain) (rereadChars k.toList) line) := by
      rw [hk, htag]
      exact fun line => .str k line
    -- First the key, then the colon with the value, then the other entries.
    have hkeyRead (line : Nat) : Consumes d
        (valueUnless [.key, .value, .blockEnd] true true line (fuel + 3))
        [.scalar (rereadChars k.toList) plain] (Spells e.1) :=
      Consumes.unless (by simp [valueEnds]) ⟨_, [], rfl, by simp [valueEnds]⟩
        (consumes_scalar hspells) line
    have hvalueRead : Consumes d (blockValue (fuel + 3)) (.value :: words) (Spells e.2) :=
      .cons (fun _ _ _ => rfl) fun line =>
        Consumes.unless (by simp [valueEnds]) hhead (hv (by omega)) line
    have hrest : Consumes d (blockEntries (fuel + 3)) (es.flatMap w ++ [.blockEnd])
        (List.Forall₂ SpellsEntry es) := by
      refine ih (fun e he => hw e (List.mem_cons_of_mem _ he)) ?_
      simp only [List.length_append, List.length_cons, List.length_nil]
      omega
    exact .cons (fun _ _ _ => rfl) fun line => (hkeyRead line).bind fun n hn =>
      hvalueRead.bind fun m hm =>
        hrest.map (f := fun ns => (n, m) :: ns) fun ns hns => .cons ⟨hn, hm⟩ hns

/-- The members of a list between brackets, after the first. -/
theorem consumes_flowItems {vs : List Value} (hv : ∀ v ∈ vs, ∃ s, v = .str s)
    (hfuel : 2 * vs.length + 1 ≤ fuel) :
    Consumes d (flowItems false fuel)
      ((vs.flatMap fun v => [.flowEntry, wordOf .bracket v]) ++ [.flowSequenceEnd])
      (List.Forall₂ Spells vs) := by
  induction vs generalizing fuel with
  | nil =>
    obtain ⟨fuel, rfl⟩ := Nat.exists_eq_add_of_le' (show 1 ≤ fuel by omega)
    have hpure : Consumes d (pure []) [] (List.Forall₂ Spells []) := consumes_pure .nil
    exact .cons (fun _ _ _ => rfl) fun _ => hpure
  | cons v vs ih =>
    rw [List.length_cons] at hfuel
    obtain ⟨fuel, rfl⟩ := Nat.exists_eq_add_of_le' (show 2 ≤ fuel by omega)
    obtain ⟨s, rfl⟩ := hv v List.mem_cons_self
    obtain ⟨plain, hword, htag⟩ := stringWord_eq .bracket s.toList
    have hfirst : Consumes d (value false false (fuel + 1))
        [.scalar (rereadChars s.toList) plain] (Spells (.str s)) :=
      consumes_scalar fun line => by rw [htag]; exact .str s line
    have hrest : Consumes d (flowItems false (fuel + 1)) _ (List.Forall₂ Spells vs) :=
      ih (fun u hu => hv u (List.mem_cons_of_mem _ hu)) (by omega)
    have hitems := hfirst.bind (f := fun n => do return n :: (← flowItems false (fuel + 1)))
      fun n hn => hrest.map (f := fun ns => n :: ns) fun ns hns => List.Forall₂.cons hn hns
    rw [List.flatMap_cons, wordOf, hword]
    exact .skip (fun _ _ _ _ => rfl) hitems

theorem intersperse_eq_flatMap {α : Type} (sep x : α) (xs : List α) :
    (x :: xs).intersperse sep = x :: xs.flatMap fun y => [sep, y] := by
  induction xs generalizing x with
  | nil => rfl
  | cons y ys ih => rw [List.intersperse_cons_cons, ih, List.flatMap_cons]; rfl

/-- A list of strings between brackets. -/
theorem consumes_bracketWords {vs : List Value} (hne : vs ≠ [])
    (hv : ∀ v ∈ vs, ∃ s, v = .str s) {block indentless : Bool}
    (hfuel : 2 * (bracketWords vs).length ≤ fuel) :
    Consumes (d + 1) (value block indentless fuel) (bracketWords vs) (Spells (.list vs)) := by
  obtain ⟨v, vs, rfl⟩ := List.exists_cons_of_ne_nil hne
  rw [bracketWords, List.map_cons, intersperse_eq_flatMap, List.flatMap_map] at hfuel ⊢
  obtain ⟨s, rfl⟩ := hv v List.mem_cons_self
  obtain ⟨plain, hword, htag⟩ := stringWord_eq .bracket s.toList
  have hlength : vs.length ≤ (vs.flatMap fun v => [Word.flowEntry, wordOf .bracket v]).length := by
    rw [List.length_flatMap]
    simp
    omega
  simp only [List.cons_append, List.length_cons, List.length_append, List.length_nil] at hfuel
  obtain ⟨fuel, rfl⟩ := Nat.exists_eq_add_of_le' (show 3 ≤ fuel by omega)
  have hfirst : Consumes d (value false false (fuel + 1))
      [.scalar (rereadChars s.toList) plain] (Spells (.str s)) :=
    consumes_scalar fun line => by rw [htag]; exact .str s line
  have hrest : Consumes d (flowItems false (fuel + 1)) _ (List.Forall₂ Spells vs) :=
    consumes_flowItems (fun u hu => hv u (List.mem_cons_of_mem _ hu)) (by omega)
  have hitems := hfirst.bind (f := fun n => do return n :: (← flowItems false (fuel + 1)))
    fun n hn => hrest.map (f := fun ns => n :: ns) fun ns hns => List.Forall₂.cons hn hns
  -- The first member has no comma before it; the others are each read after one.
  have hstart : Consumes d (flowItems true (fuel + 2)) (Word.scalar (rereadChars s.toList) plain ::
      ((vs.flatMap fun v => [.flowEntry, wordOf .bracket v]) ++ [.flowSequenceEnd]))
      (List.Forall₂ Spells (.str s :: vs)) := by
    refine Consumes.at ?_ hitems
    exact fun _ _ _ => rfl
  rw [wordOf, hword]
  exact .cons (fun _ _ _ => by cases block <;> cases indentless <;> rfl) fun line =>
    hstart.nested.map (f := fun ns => .sequence .seq ns line) fun ns hns => spells_list hns line

theorem consumes_of_isScalar {v : Value} (hv : Data v) (hscalar : isScalar v = true)
    {indentless : Bool} (hfuel : 2 * (valueWords v).length ≤ fuel) :
    Consumes d (value true indentless fuel) (valueWords v) (Spells v) := by
  rw [valueWords_of_isScalar hscalar] at hfuel ⊢
  obtain ⟨fuel, rfl⟩ := Nat.exists_eq_add_of_le' (show 1 ≤ fuel by simp at hfuel; omega)
  obtain ⟨text, plain, hword, hspells⟩ := exists_scalar_of_data hv hscalar .value
  rw [hword]
  exact consumes_scalar hspells

/-- **The words of data are read as its tree**, if there is room for as many collections as are
within each other in the data. -/
theorem consumes_valueWords {v : Value} (hv : Data v) (hdepth : v.depth ≤ d) {indentless : Bool}
    (hfuel : 2 * (valueWords v).length ≤ fuel) :
    Consumes d (value true indentless fuel) (valueWords v) (Spells v) := by
  -- One case for each kind of data; collections that are empty are read as pairs of brackets.
  induction hv generalizing indentless fuel d with
  | bool b => exact consumes_of_isScalar (.bool b) rfl hfuel
  | int n => exact consumes_of_isScalar (.int n) rfl hfuel
  | float x => exact consumes_of_isScalar (.float x) rfl hfuel
  | str s => exact consumes_of_isScalar (.str s) rfl hfuel
  | @list items hitems ih =>
    obtain ⟨d, rfl⟩ := Nat.exists_eq_add_of_le' (le_trans (Nat.le_add_left 1 _) hdepth)
    have hdepths := Value.depth_list_le_iff.1 hdepth
    rw [valueWords] at hfuel ⊢
    cases items with
    | nil =>
      obtain ⟨fuel, rfl⟩ := Nat.exists_eq_add_of_le' (show 2 ≤ fuel by simp at hfuel; omega)
      have hpure : Consumes d (pure []) [] (List.Forall₂ Spells []) := consumes_pure .nil
      have hstart : Consumes d (flowItems true (fuel + 1)) [.flowSequenceEnd]
          (List.Forall₂ Spells []) := .cons (fun _ _ _ => rfl) fun _ => hpure
      exact .cons (fun _ _ _ => by cases indentless <;> rfl) fun line =>
        hstart.nested.map (f := fun ns => .sequence .seq ns line) fun ns hns => spells_list hns line
    | cons v vs =>
      change 2 * (.blockSequenceStart :: itemWords (v :: vs) ++ [Word.blockEnd]).length ≤ fuel
        at hfuel
      obtain ⟨fuel, rfl⟩ := Nat.exists_eq_add_of_le' (show 1 ≤ fuel by simp at hfuel; omega)
      have hread : Consumes d (blockItems fuel) _ (List.Forall₂ Spells (v :: vs)) :=
        consumes_blockItems (fun u hu fuel hfuel => ih u hu (hdepths u hu) hfuel)
          (by simp at hfuel ⊢; omega)
      exact .cons (fun _ _ _ => by cases indentless <;> rfl) fun line =>
        hread.nested.map (f := fun ns => .sequence .seq ns line) fun ns hns => spells_list hns line
  | @map entries hkeys hentries ih =>
    obtain ⟨d, rfl⟩ := Nat.exists_eq_add_of_le' (le_trans (Nat.le_add_left 1 _) hdepth)
    have hdepths := Value.depth_map_le_iff.1 hdepth
    rw [valueWords] at hfuel ⊢
    cases entries with
    | nil =>
      obtain ⟨fuel, rfl⟩ := Nat.exists_eq_add_of_le' (show 2 ≤ fuel by simp at hfuel; omega)
      have hpure : Consumes d (pure []) [] (List.Forall₂ SpellsEntry []) := consumes_pure .nil
      have hstart : Consumes d (flowEntries true (fuel + 1)) [.flowMappingEnd]
          (List.Forall₂ SpellsEntry []) := .cons (fun _ _ _ => rfl) fun _ => hpure
      exact .cons (fun _ _ _ => by cases indentless <;> rfl) fun line =>
        hstart.nested.map (f := fun ns => .mapping .map ns line) fun ns hns => spells_map hns line
    | cons e es =>
      change 2 * (.blockMappingStart :: entryWords (e :: es) ++ [Word.blockEnd]).length ≤ fuel
        at hfuel
      change Consumes _ _ (.blockMappingStart :: (entryWords (e :: es) ++ [Word.blockEnd])) _
      rw [entryWords_eq_flatMap] at hfuel ⊢
      obtain ⟨fuel, rfl⟩ := Nat.exists_eq_add_of_le' (show 1 ≤ fuel by simp at hfuel; omega)
      have hread : Consumes d (blockEntries fuel) ((e :: es).flatMap wordsOfEntry ++ [.blockEnd])
          (List.Forall₂ SpellsEntry (e :: es)) := consumes_blockEntries (fun u hu => by
          obtain ⟨k, hk⟩ := hkeys u hu
          exact ⟨k, valueWords u.2, hk, rfl, exists_head_valueWords u.2,
            fun h => ih u hu (hdepths u hu).2 h⟩)
        (by simp at hfuel ⊢; omega)
      exact .cons (fun _ _ _ => by cases indentless <;> rfl) fun line =>
        hread.nested.map (f := fun ns => .mapping .map ns line) fun ns hns => spells_map hns line

/-! ## Documents -/

/-- What follows the root of a document. -/
def afterRoot (fuel : Nat) (root : Node) : Read (Option Node) := do
  if ← nextIn [.documentEnd] then advance
  match ← documentStart fuel with
  | none => return some root
  | some line => throw (.problem .secondDocument line)

theorem document_eq (fuel line : Nat) (ts : List Token) (fault : Option Fault) :
    document fuel { tokens := ⟨.blockMappingStart, line⟩ :: ts, fault } =
      (value true false fuel >>= afterRoot fuel)
        { tokens := ⟨.blockMappingStart, line⟩ :: ts, fault, handles := defaultHandles } := by
  rfl

/-- The words of the outermost mapping are read as its tree. -/
theorem consumes_topWords {inline : List String} {entries : List (Value × Value)}
    (hdata : TopData inline entries)
    (hfuel : 2 * (.blockMappingStart :: entries.flatMap (topWords inline) ++
      [Word.blockEnd]).length ≤ fuel) :
    Consumes (Value.map entries).depth (value true false fuel)
      (.blockMappingStart :: entries.flatMap (topWords inline) ++ [.blockEnd])
      (Spells (.map entries)) := by
  obtain ⟨d, hd⟩ : ∃ d, (Value.map entries).depth = d + 1 := ⟨_, by rw [Value.depth]⟩
  have hdepths := Value.depth_map_le_iff.1 hd.le
  rw [hd]
  obtain ⟨fuel, rfl⟩ := Nat.exists_eq_add_of_le' (show 1 ≤ fuel by simp at hfuel; omega)
  have hentry : ∀ e ∈ entries, ∃ k words, e.1 = .str k ∧
      topWords inline e = .key :: wordOf .key e.1 :: .value :: words ∧
        (∃ word ws, words = word :: ws ∧ word ∉ valueEnds) ∧
          ∀ {fuel : Nat}, 2 * words.length ≤ fuel →
            Consumes d (value true true fuel) words (Spells e.2) := by
    intro e he
    have hvalue := hdata.data e he
    have hdepth := (hdepths e he).2
    rcases top_cases inline (hdata.keys e he) with
      ⟨k, items, rfl, hne, hmem, -, hwords⟩ | ⟨⟨k, v, rfl⟩, -, hwords⟩
    · have hmembers := hdata.members _ he k items rfl hmem
      obtain ⟨d, rfl⟩ := Nat.exists_eq_add_of_le' (le_trans (Nat.le_add_left 1 _) hdepth)
      exact ⟨k, bracketWords items, rfl, hwords, ⟨_, _, rfl, by simp [valueEnds]⟩,
        fun h => consumes_bracketWords hne hmembers h⟩
    · exact ⟨k, valueWords v, rfl, hwords, exists_head_valueWords v,
        fun h => consumes_valueWords hvalue hdepth h⟩
  have hread : Consumes d (blockEntries fuel) (entries.flatMap (topWords inline) ++ [.blockEnd])
      (List.Forall₂ SpellsEntry entries) :=
    consumes_blockEntries hentry (by simp at hfuel ⊢; omega)
  exact .cons (fun _ _ _ => rfl) fun line =>
    hread.nested.map (f := fun ns => .mapping .map ns line) fun ns hns => spells_map hns line

/-- **The tokens of the outermost mapping are read as its tree.** -/
theorem ofTokens?_eq {inline : List String} {entries : List (Value × Value)}
    (hdata : TopData inline entries) {tokens : List Token}
    (htokens : tokens.map Token.word =
      .blockMappingStart :: entries.flatMap (topWords inline) ++ [.blockEnd, .streamEnd]) :
    ∃ n, Spells (.map entries) n ∧ Tree.ofTokens? tokens none = .ok (some ⟨n, []⟩) := by
  have hsplit : tokens.map Token.word =
      (.blockMappingStart :: entries.flatMap (topWords inline) ++ [.blockEnd]) ++ [.streamEnd] := by
    rw [htokens]
    simp
  obtain ⟨ts, ends, rfl, hts, hends⟩ := List.map_eq_append_iff.1 hsplit
  obtain ⟨line, ends', rfl, hends'⟩ := exists_cons_of_map hends
  obtain rfl := List.map_eq_nil_iff.1 hends'
  have hlength := congrArg List.length hts
  rw [List.length_map] at hlength
  have hfuel : 2 * (.blockMappingStart :: entries.flatMap (topWords inline) ++
      [Word.blockEnd]).length ≤ 4 * (ts ++ [Token.mk .streamEnd line]).length + 8 := by
    rw [← hlength, List.length_append]
    omega
  obtain ⟨n, hn, hread⟩ := consumes_topWords hdata hfuel
    { tokens := [], fault := none, handles := defaultHandles } ts [⟨.streamEnd, line⟩]
    (by simpa using hdata.room) hts
  refine ⟨n, hn, ?_⟩
  obtain ⟨line', ts', rfl, -⟩ := exists_cons_of_map hts
  -- After the root the end of the text is met, and no second document.
  have hdocument : document (4 * (⟨.blockMappingStart, line'⟩ :: ts' ++
      [Token.mk .streamEnd line]).length + 8)
      { tokens := ⟨.blockMappingStart, line'⟩ :: (ts' ++ [⟨.streamEnd, line⟩]), fault := none } =
        .ok (some n,
          { tokens := [⟨.streamEnd, line⟩], fault := none, handles := defaultHandles }) := by
    dsimp only at hread
    rw [document_eq]
    show (value true false _ _ >>= fun p => afterRoot _ p.1 p.2) = _
    rw [List.cons_append] at hread ⊢
    rw [hread]
    rfl
  show (document _ _ >>= _) = _
  rw [List.cons_append] at hdocument ⊢
  rw [hdocument]
  rfl

end Node

end Storyline.Yaml
