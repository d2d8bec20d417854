import Storyline.Proofs.Outcome
import Storyline.Yaml.Node

/-!
# Steps of reading

What all steps of reading tokens have in common. They pass tokens and never make up any, and what is
read after a collection finds it closed. They fail at a problem, at the fault that ends the tokens,
or because one more collection is open than there is room for; and since whatever is open has been
opened by a token of its own, the last can only happen if there are more such tokens than there is
room for collections.

## Main definitions

* `Word.opens`, `openings`: tokens that may open a collection, and their number
* `Node.Keeps`: a step of reading that fails as it may, or closes what it opens

## Main results

* `Node.tidy_reading`: every step of reading values keeps what it finds
* `expected_of_ofTokens?`: how reading the tokens of a text may fail
* `exists_error_ofTokens?`: no tree is read without the end of the text
-/

namespace Storyline.Yaml

/-- Whether a token may open a collection. -/
def Word.opens : Word → Bool
  | .flowSequenceStart | .flowMappingStart | .blockSequenceStart | .blockMappingStart => true
  -- The first item of a sequence that is not indented opens it, and so does a key in brackets.
  | .blockEntry | .key => true
  | _ => false

/-- How many collections tokens may open. -/
def openings (ts : List Token) : Nat :=
  ts.countP fun t => t.word.opens

theorem openings_cons_of_opens {t : Token} (h : t.word.opens = true) (ts : List Token) :
    openings (t :: ts) = openings ts + 1 :=
  List.countP_cons_of_pos h

theorem openings_le_of_suffix {us ts : List Token} (h : us <:+ ts) : openings us ≤ openings ts :=
  h.sublist.countP_le

theorem openings_drop_le (ts : List Token) (n : Nat) : openings (ts.drop n) ≤ openings ts :=
  openings_le_of_suffix (List.drop_suffix n ts)

/-- How reading may fail that opens at most `n` collections: at a problem, at the fault that ends
the tokens, or because there is no room for `n` collections. -/
def Expected (n : Nat) (fault : Option Fault) (e : Fault) : Prop :=
  (∃ p line, e = .problem p line) ∨ fault = some e ∨ e = .defect .recursion ∧ callRoom < 2 * n

namespace Node

/-- A reader in front of some tokens, with `k` collections open. -/
structure At (fault : Option Fault) (k : Nat) (ts : List Token) (r : Reader) : Prop where
  tokens : r.tokens = ts
  fault : r.fault = fault
  depth : r.depth = k

variable {α β : Type}

/-- Whether a step of reading from `r` ends with a result and a reader of a kind, or with a fault of
a kind. -/
def Ends (P : α → Reader → Prop) (F : Fault → Prop) (r : Reader) (m : Read α) : Prop :=
  (∀ a r', m r = .ok (a, r') → P a r') ∧ ∀ e, m r = .error e → F e

/-- A reader that has passed some tokens, with as many collections open as before. -/
def Past (fault : Option Fault) (k : Nat) (ts : List Token) (r : Reader) : Prop :=
  ∃ us, us <:+ ts ∧ At fault k us r

/-- A step of reading that fails as it may, or passes tokens and leaves as many collections open as
it finds. -/
def Keeps (n : Nat) (fault : Option Fault) (k : Nat) (ts : List Token) (m : Read α) : Prop :=
  ∀ r, At fault k ts r → Ends (fun _ => Past fault k ts) (Expected n fault) r m

/-- A step that passes no token and opens nothing. -/
def Quiet (m : Read α) : Prop :=
  ∀ n fault k ts r, At fault k ts r → Ends (fun _ => At fault k ts) (Expected n fault) r m

variable {n k : Nat} {fault : Option Fault} {ts : List Token} {F : Fault → Prop} {r : Reader}

theorem Ends.bind {P : α → Reader → Prop} {Q : β → Reader → Prop} {m : Read α} {f : α → Read β}
    (hm : Ends P F r m) (hf : ∀ a r', P a r' → Ends Q F r' (f a)) : Ends Q F r (m >>= f) := by
  cases hstep : m r with
  | error d =>
    have hbind : (m >>= f) r = .error d := by
      show (m r >>= _ : Except Fault (β × Reader)) = _
      rw [hstep]
      rfl
    refine ⟨fun b r' h => ?_, fun e h => ?_⟩
    · cases hbind.symm.trans h
    · cases hbind.symm.trans h
      exact hm.2 d hstep
  | ok p =>
    have hbind : (m >>= f) r = f p.1 p.2 := by
      show (m r >>= _ : Except Fault (β × Reader)) = _
      rw [hstep]
      rfl
    obtain ⟨hok, herror⟩ := hf p.1 p.2 (hm.1 p.1 p.2 hstep)
    exact ⟨fun b r' h => hok b r' (hbind.symm.trans h), fun e h => herror e (hbind.symm.trans h)⟩

/-! ## Steps -/

theorem Past.weaken {us : List Token} (h : Past fault k us r) (hus : us <:+ ts) :
    Past fault k ts r := by
  obtain ⟨vs, hvs, hr⟩ := h
  exact ⟨vs, hvs.trans hus, hr⟩

theorem At.past (hr : At fault k ts r) : Past fault k ts r :=
  ⟨ts, List.suffix_refl ts, hr⟩

/-- What comes after a step keeps what the step has left. -/
theorem Keeps.bind {m : Read α} {f : α → Read β} (hm : Keeps n fault k ts m)
    (hf : ∀ a us, openings us ≤ openings ts → Keeps n fault k us (f a)) :
    Keeps n fault k ts (m >>= f) := by
  intro r hr
  refine (hm r hr).bind ?_
  rintro a r' ⟨us, hus, hr'⟩
  obtain ⟨hok, herror⟩ := hf a us (openings_le_of_suffix hus) r' hr'
  exact ⟨fun b r'' h => (hok b r'' h).weaken hus, herror⟩

theorem Quiet.bind {m : Read α} {f : α → Read β} (hm : Quiet m)
    (hf : ∀ a, Keeps n fault k ts (f a)) : Keeps n fault k ts (m >>= f) :=
  fun r hr => (hm n fault k ts r hr).bind fun a r' hr' => hf a r' hr'

theorem ends_pure {P : α → Reader → Prop} {a : α} (h : P a r) : Ends P F r (pure a) := by
  refine ⟨fun b r' hb => ?_, fun e he => ?_⟩
  · cases hb
    exact h
  · cases he

/-- A problem is always among the faults that may end reading. -/
theorem ends_problem {P : α → Reader → Prop} (p : Problem) (line : Nat) :
    Ends P (Expected n fault) r (throw (.problem p line)) := by
  refine ⟨fun a r' h => ?_, fun e h => ?_⟩
  · cases h
  · cases h
    exact .inl ⟨p, line, rfl⟩

theorem quiet_pure (a : α) : Quiet (pure a) :=
  fun _ _ _ _ _ hr => ends_pure hr

theorem quiet_problem (p : Problem) (line : Nat) : Quiet (throw (.problem p line) : Read α) :=
  fun _ _ _ _ _ _ => ends_problem p line

theorem Quiet.keeps {m : Read α} (hm : Quiet m) : Keeps n fault k ts m := by
  intro r hr
  obtain ⟨hok, herror⟩ := hm n fault k ts r hr
  exact ⟨fun a r' h => (hok a r' h).past, herror⟩

theorem keeps_pure (a : α) : Keeps n fault k ts (pure a) :=
  (quiet_pure a).keeps

theorem Quiet.then {m : Read α} {f : α → Read β} (hm : Quiet m) (hf : ∀ a, Quiet (f a)) :
    Quiet (m >>= f) :=
  fun n fault k ts r hr =>
    (hm n fault k ts r hr).bind fun a r' hr' => hf a n fault k ts r' hr'

/-- A token is looked at; where there is none, the fault that ended the tokens arises. -/
theorem ends_peek (hr : At fault k ts r) :
    Ends (fun t r' => At fault k ts r' ∧ ∃ rest, ts = t :: rest) (Expected n fault) r peek := by
  obtain ⟨tokens, fault', handles, anchors, depth⟩ := r
  obtain ⟨rfl, rfl, rfl⟩ := hr
  cases tokens with
  | nil =>
    refine ⟨fun a r' h => ?_, fun e h => ?_⟩
    · cases h
    · cases h
      cases fault' with
      | none => exact .inl ⟨_, _, rfl⟩
      | some f => exact .inr (.inl rfl)
  | cons t rest =>
    refine ⟨fun a r' h => ?_, fun e h => ?_⟩
    · cases h
      exact ⟨⟨rfl, rfl, rfl⟩, rest, rfl⟩
    · cases h

theorem quiet_peek : Quiet peek := by
  intro n fault k ts r hr
  obtain ⟨hok, herror⟩ := ends_peek hr
  exact ⟨fun t r' h => (hok t r' h).1, herror⟩

theorem Keeps.peek {f : Token → Read β}
    (hf : ∀ t rest, ts = t :: rest → Keeps n fault k ts (f t)) :
    Keeps n fault k ts (Node.peek >>= f) := by
  intro r hr
  refine (ends_peek hr).bind ?_
  rintro t r' ⟨hr', rest, hts⟩
  exact hf t rest hts r' hr'

theorem ends_advance (hr : At fault k ts r) :
    Ends (fun _ => At fault k (ts.drop 1)) F r advance := by
  refine ⟨fun _ r' h => ?_, fun e h => ?_⟩
  · cases h
    exact ⟨congrArg (List.drop 1) hr.tokens, hr.fault, hr.depth⟩
  · cases h

theorem Keeps.advance {f : Unit → Read β} (hf : Keeps n fault k (ts.drop 1) (f ())) :
    Keeps n fault k ts (Node.advance >>= f) := by
  intro r hr
  refine (ends_advance hr).bind fun _ r' hr' => ?_
  obtain ⟨hok, herror⟩ := hf r' hr'
  exact ⟨fun b r'' h => (hok b r'' h).weaken (List.drop_suffix 1 ts), herror⟩

theorem Keeps.pass {t : Token} {rest : List Token} {f : Unit → Read β}
    (hf : Keeps n fault k rest (f ())) : Keeps n fault k (t :: rest) (Node.advance >>= f) :=
  .advance hf

/-- Without room for another collection nothing is read in it. -/
theorem nested_of_full {m : Read α} (h : callRoom < 2 * (r.depth + 1)) :
    Node.nested m r = .error (.defect .recursion) := by
  show (if callRoom < 2 * (r.depth + 1) then _ else _ : Read α) _ = _
  rw [if_pos h]
  rfl

theorem nested_of_room {m : Read α} (h : ¬ callRoom < 2 * (r.depth + 1)) :
    Node.nested m r = (m { r with depth := r.depth + 1 } >>= fun p =>
      .ok (p.1, { p.2 with depth := p.2.depth - 1 }) : Except Fault (α × Reader)) := by
  show (if callRoom < 2 * (r.depth + 1) then _ else _ : Read α) _ = _
  rw [if_neg h]
  rfl

/-- What is in a collection is read if there is room for the collection. -/
theorem Keeps.nested {m : Read α} (hn : k + 1 ≤ n) (hm : Keeps n fault (k + 1) ts m) :
    Keeps n fault k ts (Node.nested m) := by
  intro r hr
  by_cases hroom : callRoom < 2 * (r.depth + 1)
  · have hfault := nested_of_full (m := m) hroom
    refine ⟨fun a r' h => ?_, fun e h => ?_⟩
    · cases hfault.symm.trans h
    · cases hfault.symm.trans h
      rw [hr.depth] at hroom
      exact .inr (.inr ⟨rfl, by omega⟩)
  · have hinside := nested_of_room (m := m) hroom
    have hr' : At fault (k + 1) ts { r with depth := r.depth + 1 } :=
      ⟨hr.tokens, hr.fault, congrArg (· + 1) hr.depth⟩
    obtain ⟨hok, herror⟩ := hm _ hr'
    -- The collection is closed again on the way out, and only if its content was read.
    cases hread : m { r with depth := r.depth + 1 } with
    | error d =>
      rw [hread] at hinside
      refine ⟨fun a r' h => ?_, fun e h => ?_⟩
      · cases hinside.symm.trans h
      · cases hinside.symm.trans h
        exact herror d hread
    | ok p =>
      rw [hread] at hinside
      obtain ⟨us, hus, hts, hfault, hdepth⟩ := hok p.1 p.2 hread
      refine ⟨fun a r' h => ?_, fun e h => ?_⟩
      · cases hinside.symm.trans h
        exact ⟨us, hus, hts, hfault, by dsimp only; omega⟩
      · cases hinside.symm.trans h

/-! ## Names and tags -/

/-- A change of what names and handles stand for. -/
theorem quiet_modify {f : Reader → Reader} (hf : ∀ r, (f r).tokens = r.tokens ∧
    (f r).fault = r.fault ∧ (f r).depth = r.depth) : Quiet (modify f : Read Unit) := by
  intro n fault k ts r hr
  obtain ⟨htokens, hfault, hdepth⟩ := hf r
  refine ⟨fun _ r' h => ?_, fun e h => ?_⟩
  · cases h
    exact ⟨htokens.trans hr.tokens, hfault.trans hr.fault, hdepth.trans hr.depth⟩
  · cases h

theorem quiet_remember (name : Option String) (node : Node) : Quiet (remember name node) := by
  cases name with
  | none => exact quiet_pure ()
  | some a => exact quiet_modify fun _ => ⟨rfl, rfl, rfl⟩

theorem quiet_openNode (name : Option String) (isMapping : Bool) (tag : Tag) (line : Nat) :
    Quiet (openNode name isMapping tag line) := by
  cases name with
  | none => exact quiet_pure ()
  | some a => exact quiet_remember (some a) _

theorem quiet_get : Quiet (get : Read Reader) := by
  intro n fault k ts r hr
  refine ⟨fun a r' h => ?_, fun e h => ?_⟩
  · cases h
    exact hr
  · cases h

theorem quiet_checkAnchor (p : Properties) (line : Nat) : Quiet (checkAnchor p line) := by
  unfold checkAnchor
  split
  · refine quiet_get.then fun r => ?_
    split
    · exact quiet_problem _ _
    · exact quiet_pure ()
  · exact quiet_pure ()

theorem quiet_fullTag (p : Properties) : Quiet (fullTag p) := by
  unfold fullTag
  split
  · exact quiet_pure none
  · exact quiet_pure _
  · refine quiet_get.then fun r => ?_
    split
    · exact quiet_pure _
    · exact quiet_problem _ _

theorem quiet_nextIn (words : List Word) : Quiet (nextIn words) :=
  quiet_peek.then fun _ => quiet_pure _

/-- What is unexpected is a problem, and nothing is read. -/
theorem ends_unexpected {P : α → Reader → Prop} (hr : At fault k ts r)
    (problem : String → Problem) : Ends P (Expected n fault) r (unexpected problem) := by
  exact (ends_peek hr).bind fun t r' _ => ends_problem _ _

theorem quiet_unexpected (problem : String → Problem) : Quiet (unexpected problem : Read α) :=
  fun _ _ _ _ _ hr => ends_unexpected hr problem

theorem keeps_properties (count : Nat) (p : Properties) :
    Keeps n fault k ts (properties count p) := by
  induction count generalizing p ts with
  | zero => exact keeps_pure p
  | succ count ih =>
    refine quiet_peek.bind fun t => ?_
    split
    · exact .advance (ih _)
    · exact .advance (ih _)
    · exact keeps_pure p

/-! ## Values -/

theorem keeps_named (p : Properties) (node : Node) :
    Keeps n fault k ts (value.named p node) :=
  (quiet_remember p.anchor node).bind fun _ => keeps_pure node

/-- A collection that its first token opens. -/
theorem keeps_collection {t : Token} {rest : List Token} (hopens : t.word.opens = true)
    (h : k + openings (t :: rest) ≤ n) {m : Read α}
    (hm : k + 1 + openings rest ≤ n → Keeps n fault (k + 1) rest m) (p : Properties)
    (isMapping : Bool) (tag : Tag) (line : Nat) (node : α → Node) :
    Keeps n fault k (t :: rest) (do
      checkAnchor p line
      advance
      openNode p.anchor isMapping tag line
      value.named p (node (← nested m))) := by
  rw [openings_cons_of_opens hopens] at h
  refine (quiet_checkAnchor p line).bind fun _ => .pass ((quiet_openNode _ _ _ _).bind fun _ => ?_)
  exact (Keeps.nested (by omega) (hm (by omega))).bind fun _ _ _ => keeps_named p _

/-- Between brackets a comma is passed in front of everything but what comes first. -/
theorem keeps_comma {f : Unit → Read β} (first : Bool) (problem : String → Problem)
    (hf : ∀ ts', openings ts' ≤ openings ts → Keeps n fault k ts' (f ())) :
    Keeps n fault k ts (if first = true then f () else do
      if ← nextIn [.flowEntry] then f (← advance) else f (← unexpected problem)) := by
  split
  · exact hf ts (Nat.le_refl _)
  · refine (quiet_nextIn _).bind fun found => ?_
    split
    · exact .advance (hf _ (openings_drop_le ts 1))
    · exact (quiet_unexpected problem).bind fun _ => hf ts (Nat.le_refl _)

/-- All steps of reading values with so much fuel keep what they find, as long as all collections
together are at most `n`. -/
structure Tidy (n : Nat) (fault : Option Fault) (fuel : Nat) : Prop where
  value {k : Nat} {ts : List Token} (h : k + openings ts ≤ n) (block indentless : Bool) :
    Keeps n fault k ts (value block indentless fuel)
  valueUnless {k : Nat} {ts : List Token} (h : k + openings ts ≤ n) (ends : List Word)
    (block indentless : Bool) (line : Nat) :
    Keeps n fault k ts (valueUnless ends block indentless line fuel)
  blockItems {k : Nat} {ts : List Token} (h : k + openings ts ≤ n) :
    Keeps n fault k ts (blockItems fuel)
  /-- The first item has opened the sequence. -/
  indentlessItems {k : Nat} {ts : List Token} (h : k + openings (ts.drop 1) ≤ n) :
    Keeps n fault k ts (indentlessItems fuel)
  blockEntries {k : Nat} {ts : List Token} (h : k + openings ts ≤ n) :
    Keeps n fault k ts (blockEntries fuel)
  blockValue {k : Nat} {ts : List Token} (h : k + openings ts ≤ n) :
    Keeps n fault k ts (blockValue fuel)
  flowItems {k : Nat} {ts : List Token} (h : k + openings ts ≤ n) (first : Bool) :
    Keeps n fault k ts (flowItems first fuel)
  flowEntries {k : Nat} {ts : List Token} (h : k + openings ts ≤ n) (first : Bool) :
    Keeps n fault k ts (flowEntries first fuel)
  flowValue {k : Nat} {ts : List Token} (h : k + openings ts ≤ n) (ends : List Word) :
    Keeps n fault k ts (flowValue ends fuel)

section

variable {fuel : Nat} (ih : Tidy n fault fuel)

include ih

theorem keeps_valueUnless (h : k + openings ts ≤ n) (ends : List Word) (block indentless : Bool)
    (line : Nat) : Keeps n fault k ts (valueUnless ends block indentless line (fuel + 1)) := by
  rw [valueUnless]
  refine (quiet_nextIn ends).bind fun ended => ?_
  split
  · exact keeps_pure _
  · exact ih.value h block indentless

theorem keeps_blockItems (h : k + openings ts ≤ n) :
    Keeps n fault k ts (blockItems (fuel + 1)) := by
  have hdrop := openings_drop_le ts 1
  rw [blockItems]
  refine quiet_peek.bind fun t => ?_
  split
  · refine .advance ((ih.valueUnless (by omega) _ _ _ _).bind fun node ts' hle => ?_)
    exact (ih.blockItems (by omega)).bind fun nodes _ _ => keeps_pure _
  · exact .advance (keeps_pure [])
  · exact (quiet_unexpected _).keeps

theorem keeps_indentlessItems (h : k + openings (ts.drop 1) ≤ n) :
    Keeps n fault k ts (indentlessItems (fuel + 1)) := by
  rw [indentlessItems]
  refine quiet_peek.bind fun t => ?_
  split
  · refine .advance ((ih.valueUnless h _ _ _ _).bind fun node ts' hle => ?_)
    have hdrop := openings_drop_le ts' 1
    exact (ih.indentlessItems (by omega)).bind fun nodes _ _ => keeps_pure _
  · exact keeps_pure []

theorem keeps_blockEntries (h : k + openings ts ≤ n) :
    Keeps n fault k ts (blockEntries (fuel + 1)) := by
  have hdrop := openings_drop_le ts 1
  rw [blockEntries]
  refine quiet_peek.bind fun t => ?_
  split
  · refine .advance ((ih.valueUnless (by omega) _ _ _ _).bind fun key ts' hle => ?_)
    refine (ih.blockValue (by omega)).bind fun value ts'' hle' => ?_
    exact (ih.blockEntries (by omega)).bind fun entries _ _ => keeps_pure _
  · exact .advance (keeps_pure [])
  · exact (quiet_unexpected _).keeps

theorem keeps_blockValue (h : k + openings ts ≤ n) :
    Keeps n fault k ts (blockValue (fuel + 1)) := by
  have hdrop := openings_drop_le ts 1
  rw [blockValue]
  refine quiet_peek.bind fun t => ?_
  split
  · exact .advance (ih.valueUnless (by omega) _ _ _ _)
  · exact keeps_pure _

theorem keeps_flowValue (h : k + openings ts ≤ n) (ends : List Word) :
    Keeps n fault k ts (flowValue ends (fuel + 1)) := by
  have hdrop := openings_drop_le ts 1
  rw [flowValue]
  refine quiet_peek.bind fun t => ?_
  split
  · exact .advance (ih.valueUnless (by omega) _ _ _ _)
  · exact keeps_pure _

theorem keeps_flowEntries (h : k + openings ts ≤ n) (first : Bool) :
    Keeps n fault k ts (flowEntries first (fuel + 1)) := by
  rw [flowEntries]
  refine (quiet_nextIn _).bind fun ended => ?_
  split
  · exact .advance (keeps_pure [])
  · extract_lets entry
    refine keeps_comma (f := entry) first _ fun ts' hle => ?_
    have hdrop := openings_drop_le ts' 1
    refine quiet_peek.bind fun t => ?_
    split
    · refine .advance ((ih.valueUnless (by omega) _ _ _ _).bind fun key us hle => ?_)
      refine (ih.flowValue (by omega) _).bind fun value vs hle' => ?_
      exact (ih.flowEntries (by omega) _).bind fun entries _ _ => keeps_pure _
    · exact .advance (keeps_pure [])
    · refine (ih.value (by omega) _ _).bind fun key us hle => quiet_peek.bind fun t => ?_
      exact (ih.flowEntries (by omega) _).bind fun entries _ _ => keeps_pure _

theorem keeps_flowItems (h : k + openings ts ≤ n) (first : Bool) :
    Keeps n fault k ts (flowItems first (fuel + 1)) := by
  rw [flowItems]
  refine (quiet_nextIn _).bind fun ended => ?_
  split
  · exact .advance (keeps_pure [])
  · extract_lets item
    refine keeps_comma (f := item) first _ fun ts' hle => Keeps.peek fun t rest hts => ?_
    subst hts
    split
    · next hkey =>
      -- The key makes a mapping of its own, which it opens.
      have hopens := openings_cons_of_opens (congrArg Word.opens hkey) rest
      refine .pass ((Keeps.nested (by omega) ?_).bind fun entry us hle' => ?_)
      · refine (ih.valueUnless (by omega) _ _ _ _).bind fun key us hle' => ?_
        exact (ih.flowValue (by omega) _).bind fun value _ _ => keeps_pure _
      · exact (ih.flowItems (by omega) _).bind fun nodes _ _ => keeps_pure _
    · exact .advance (keeps_pure [])
    · refine (ih.value (by omega) _ _).bind fun node us hle' => ?_
      exact (ih.flowItems (by omega) _).bind fun nodes _ _ => keeps_pure _

theorem keeps_value (h : k + openings ts ≤ n) (block indentless : Bool) :
    Keeps n fault k ts (value block indentless (fuel + 1)) := by
  rw [value]
  refine quiet_peek.bind fun t => ?_
  split
  · refine .advance (Quiet.keeps (quiet_get.then fun r => ?_))
    split
    · exact quiet_pure _
    · exact quiet_problem _ _
  refine (keeps_properties 2 {}).bind fun p ts' hle => (quiet_fullTag p).bind fun name => ?_
  refine Keeps.peek fun t rest hts => ?_
  subst hts
  extract_lets line sequenceTag mappingTag
  have hdrop : openings rest ≤ openings (t :: rest) := openings_drop_le (t :: rest) 1
  split
  · exact .pass ((quiet_checkAnchor p line).bind fun _ => keeps_named p _)
  · next hword =>
    exact keeps_collection (congrArg Word.opens hword) (by omega) (ih.flowItems · true) p _ _ _ _
  · next hword =>
    exact keeps_collection (congrArg Word.opens hword) (by omega) (ih.flowEntries · true) p _ _ _ _
  · split
    · -- The first item opens the sequence and is still to be read.
      next hentry =>
      have hword : t.word = .blockEntry := eq_of_beq (Bool.and_eq_true_iff.1 hentry).2
      have hopens := openings_cons_of_opens (congrArg Word.opens hword) rest
      refine (quiet_checkAnchor p line).bind fun _ => (quiet_openNode _ _ _ _).bind fun _ => ?_
      refine (Keeps.nested (by omega) (ih.indentlessItems ?_)).bind fun _ _ _ => keeps_named p _
      show k + 1 + openings rest ≤ n
      omega
    · split
      · next hstart =>
        have hword : t.word = .blockSequenceStart := eq_of_beq (Bool.and_eq_true_iff.1 hstart).2
        exact keeps_collection (congrArg Word.opens hword) (by omega) ih.blockItems p _ _ _ _
      · split
        · next hstart =>
          have hword : t.word = .blockMappingStart := eq_of_beq (Bool.and_eq_true_iff.1 hstart).2
          exact keeps_collection (congrArg Word.opens hword) (by omega) ih.blockEntries p _ _ _ _
        · split
          · exact (quiet_checkAnchor p line).bind fun _ => keeps_named p _
          · exact (quiet_unexpected _).keeps

end

/-- Every step of reading values keeps what it finds. -/
theorem tidy_reading (fuel : Nat) : Tidy n fault fuel := by
  induction fuel with
  | zero =>
    -- Without fuel every step ends at a problem.
    constructor <;> intros <;> exact (quiet_problem _ _).keeps
  | succ fuel ih =>
    exact
      { value := keeps_value ih
        valueUnless := keeps_valueUnless ih
        blockItems := keeps_blockItems ih
        indentlessItems := keeps_indentlessItems ih
        blockEntries := keeps_blockEntries ih
        blockValue := keeps_blockValue ih
        flowItems := keeps_flowItems ih
        flowEntries := keeps_flowEntries ih
        flowValue := keeps_flowValue ih }

/-! ## Documents -/

/-- A problem under a condition, and else what comes after it. -/
theorem keeps_unless {c : Prop} {_ : Decidable c} {f : Unit → Read β} (p : Problem) (line : Nat)
    (hf : Keeps n fault k ts (f ())) :
    Keeps n fault k ts (if c then do f (← throw (.problem p line)) else f ()) := by
  split
  · exact (quiet_problem p line).bind fun _ => hf
  · exact hf

theorem keeps_directives (version : Bool) (handles : List (String × String)) (fuel : Nat) :
    Keeps n fault k ts (directives version handles fuel) := by
  induction fuel generalizing version handles ts with
  | zero => exact keeps_pure _
  | succ fuel ih =>
    refine quiet_peek.bind fun t => ?_
    split
    · extract_lets pass check
      refine keeps_unless (f := check) _ _ ?_
      exact keeps_unless (f := pass) _ _ (.advance (ih _ _))
    · next handle replacement _ =>
      exact keeps_unless
        (f := fun _ => do advance; directives version ((handle, replacement) :: handles) fuel) _ _
        (.advance (ih _ _))
    · exact .advance (ih _ _)
    · exact keeps_pure _

theorem keeps_skipEnds (fuel : Nat) : Keeps n fault k ts (skipEnds fuel) := by
  induction fuel generalizing ts with
  | zero => exact keeps_pure ()
  | succ fuel ih =>
    refine (quiet_nextIn _).bind fun ended => ?_
    split
    · exact .advance ih
    · exact keeps_pure ()

theorem quiet_handles (handles : List (String × String)) :
    Quiet (modify fun r => { r with handles := handles } : Read Unit) :=
  quiet_modify fun _ => ⟨rfl, rfl, rfl⟩

/-- Whether the end of the text is among tokens. -/
def Ended (ts : List Token) : Prop :=
  .streamEnd ∈ ts.map Token.word

theorem Ended.weaken {us : List Token} (h : Ended us) (hus : us <:+ ts) : Ended ts :=
  (hus.map Token.word).subset h

/-- Only at the end of the text a document does not start. -/
theorem ends_documentStart (hr : At fault k ts r) (fuel : Nat) :
    Ends (fun start r' => (start = none → Ended ts) ∧ Past fault k ts r') (Expected n fault) r
      (documentStart fuel) := by
  refine (keeps_skipEnds fuel r hr).bind ?_
  rintro - r₁ ⟨us, hus, hr₁⟩
  refine (ends_peek hr₁).bind ?_
  rintro t r₂ ⟨hr₂, rest, rfl⟩
  split
  · next hend =>
    have hended : Ended (t :: rest) := List.mem_cons.2 (.inl (eq_of_beq hend).symm)
    exact ends_pure ⟨fun _ => hended.weaken hus, hr₂.past.weaken hus⟩
  · refine (keeps_directives false [] fuel r₂ hr₂).bind ?_
    rintro handles r₃ ⟨vs, hvs, hr₃⟩
    refine (quiet_nextIn _ n fault k vs r₃ hr₃).bind fun marked r₄ hr₄ => ?_
    split
    · have hdrop := (List.drop_suffix 1 vs).trans (hvs.trans hus)
      refine (ends_advance hr₄).bind fun _ r₅ hr₅ => ?_
      refine (quiet_handles handles n fault k _ r₅ hr₅).bind fun _ r₆ hr₆ => ?_
      exact ends_pure ⟨fun h => absurd h (Option.some_ne_none _), hr₆.past.weaken hdrop⟩
    · exact ends_unexpected hr₄ _

/-- After a document the next step is the search for a second one. -/
theorem ends_second {P : α → Reader → Prop} {f : Option Nat → Read α} (hr : At fault k ts r)
    (fuel : Nat) (hnone : Ended ts → ∀ s, Ends P (Expected n fault) s (f none))
    (hsome : ∀ line s, Ends P (Expected n fault) s (f (some line))) :
    Ends P (Expected n fault) r (documentStart fuel >>= f) := by
  refine (ends_documentStart hr fuel).bind fun start s hstart => ?_
  cases start with
  | none => exact hnone (hstart.1 rfl) s
  | some line => exact hsome line s

/-- A document is read up to the end of the text, where a second one does not start. -/
theorem ends_document (h : k + openings ts ≤ n) (hr : At fault k ts r) (fuel : Nat) :
    Ends (fun _ _ => Ended ts) (Expected n fault) r (document fuel) := by
  refine (quiet_peek n fault k ts r hr).bind fun t s hs => ?_
  extract_lets marked finish body
  have hfinish {us : List Token} (hus : us <:+ ts) {s : Reader} (hs : At fault k us s)
      (root : Node) : Ends (fun _ _ => Ended ts) (Expected n fault) s (finish root) := by
    refine (quiet_nextIn _ n fault k us s hs).bind fun ended s' hs' => ?_
    dsimp only
    split
    · have hdrop := (List.drop_suffix 1 us).trans hus
      refine (ends_advance hs').bind fun _ s'' hs'' => ?_
      exact ends_second hs'' fuel (fun h _ => ends_pure (h.weaken hdrop)) fun _ _ =>
        ends_problem _ _
    · exact ends_second hs' fuel (fun h _ => ends_pure (h.weaken hus)) fun _ _ => ends_problem _ _
  have hbody {us : List Token} (hus : us <:+ ts) {s : Reader} (hs : At fault k us s)
      (start : Option Nat) (hstart : start = none → Ended ts) :
      Ends (fun _ _ => Ended ts) (Expected n fault) s (body start) := by
    cases start with
    | none => exact ends_pure (hstart rfl)
    | some line =>
      refine (quiet_peek n fault k us s hs).bind fun next s' hs' => ?_
      split
      · exact hfinish hus hs' _
      · have hle := openings_le_of_suffix hus
        refine ((tidy_reading fuel).value (by omega) true false s' hs').bind ?_
        rintro root s'' ⟨vs, hvs, hs''⟩
        exact hfinish (hvs.trans hus) hs'' root
  split
  · refine (ends_documentStart hs fuel).bind ?_
    rintro start s' ⟨hstart, us, hus, hs'⟩
    exact hbody hus hs' start hstart
  · refine (quiet_handles defaultHandles n fault k ts s hs).bind fun _ s' hs' => ?_
    exact hbody (List.suffix_refl ts) hs' (some t.line) fun h =>
      absurd h (Option.some_ne_none t.line)

end Node

section

variable {tokens : List Token} {fault : Option Fault}

theorem ends_ofTokens? (tokens : List Token) (fault : Option Fault) :
    Node.Ends (fun _ _ => Node.Ended tokens) (Expected (openings tokens) fault)
      { tokens := tokens, fault := fault } (Node.document (4 * tokens.length + 8)) :=
  Node.ends_document (Nat.le_of_eq (Nat.zero_add _)) ⟨rfl, rfl, rfl⟩ _

/-- **Reading fails for want of room only in texts that open more collections than there is room
for**; else it fails at a problem, or at the fault that ends the tokens. -/
theorem expected_of_ofTokens? {e : Fault} (h : Tree.ofTokens? tokens fault = .error e) :
    Expected (openings tokens) fault e := by
  refine (ends_ofTokens? tokens fault).2 e ?_
  unfold Tree.ofTokens? at h
  cases hrun : (Node.document (4 * tokens.length + 8)).run { tokens, fault } with
  | error d =>
    rw [hrun] at h
    cases h
    exact hrun
  | ok p =>
    rw [hrun] at h
    cases h

/-- **No tree is read without the end of the text.** -/
theorem exists_error_ofTokens? (h : .streamEnd ∉ tokens.map Token.word) (fault : Option Fault) :
    ∃ e, Tree.ofTokens? tokens fault = .error e := by
  cases hrun : Node.document (4 * tokens.length + 8) { tokens, fault } with
  | error e =>
    refine ⟨e, ?_⟩
    show (Node.document _ _ >>= _) = _
    rw [hrun]
    rfl
  | ok p => exact absurd ((ends_ofTokens? tokens fault).1 p.1 p.2 hrun) h

end

end Storyline.Yaml
