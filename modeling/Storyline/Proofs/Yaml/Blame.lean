import Storyline.Proofs.Yaml.Steps
import Storyline.Proofs.Yaml.Overrun
import Storyline.Yaml.Document

/-!
# Where a text means nothing

Most faults of a text are problems, which have a line. The others are defects, and there are three
places where they arise: in the tokens, such as a number that stands for no character; where more
collections are open than there is room for; and in a scalar that is not what its tag says, among
them a numeral of too many digits.

## Main definitions

* `Faulty`: why a scalar has no value
* `Inside`, `Occurs`: the nodes that are met in a tree
* `Blamed`: a defect of a scalar in a tree
* `Origin`, `Meaningless`: where the defect of a text arises

## Main results

* `scalarValue_error_iff`: exactly the faulty scalars have no value
* `blamed_of_toValue`: a tree without a value has a scalar that is to blame
* `load_error_iff`: exactly the texts in which a defect arises have no value because of it
-/

namespace Storyline.Yaml

open Except

/-! ## Scalars -/

/-- Why a scalar has no value, or a collection that is tagged as one. -/
inductive Faulty (names : Names) (n : Node) (d : Defect) : Prop where
  /-- Its text is that of a mapping which is found inside itself, or too deep inside others. -/
  | endless (htag : n.tag ∈ [.null, .str, .bool, .int, .float, .binary, .timestamp])
    (htext : scalarText names callRoom n = .error (.defect d)) (hd : d = .recursion)
  | word {text : List Char} (htag : n.tag = .bool)
    (htext : scalarText names callRoom n = .ok text)
    (hword : boolWords.lookup (String.ofList (text.map Char.toLower)) = none)
    (hd : d = .notBool (String.ofList (text.map Char.toLower)))
  /-- An integer that is spelled wrong, or with too many digits. -/
  | integer {text : List Char} (htag : n.tag = .int)
    (htext : scalarText names callRoom n = .ok text) (h : intValue text = .error d)
    (hnumber : ∀ f, d = .number f → Overrun text f)
  | double {text : List Char} (htag : n.tag = .float)
    (htext : scalarText names callRoom n = .ok text) (h : floatValue text = .error d)
  /-- A date that is spelled wrong, or is on no calendar. -/
  | date {text : List Char} {line : Nat} (hn : n = .scalar .timestamp text line)
    (h : momentOf text = .error d)
  /-- A mapping that stands for a date. -/
  | mapping {text : List Char} (htag : n.tag = .timestamp)
    (hn : ∀ tag text line, n ≠ .scalar tag text line)
    (htext : scalarText names callRoom n = .ok text) (hd : d = .notText)

theorem recursion_of_scalarText {names : Names} {room : Nat} {n : Node} {d : Defect}
    (h : scalarText names room n = .error (.defect d)) : d = .recursion := by
  induction room generalizing n with
  | zero =>
    cases n with
    | scalar => cases h
    | _ =>
      cases h
      rfl
  | succ room ih =>
    cases n with
    | scalar => cases h
    | sequence => cases h
    | mapping =>
      rw [scalarText] at h
      split at h
      · exact ih h
      · cases h
    | within =>
      rw [scalarText] at h
      split at h
      · exact ih h
      · cases h

theorem mapError_eq_defect_iff {α : Type} {x : Except Defect α} {d : Defect} :
    x.mapError Fault.defect = .error (.defect d) ↔ x = .error d := by
  cases x with
  | ok a => exact iff_of_false nofun nofun
  | error e =>
    constructor
    · intro h
      cases h
      rfl
    · rintro ⟨⟩
      rfl

theorem faulty_of_scalarValue {names : Names} {n : Node} {d : Defect}
    (h : scalarValue names n = .error (.defect d)) : Faulty names n d := by
  unfold scalarValue at h
  cases htext : scalarText names callRoom n with
  | error e =>
    rw [htext] at h
    dsimp only at h
    split at h
    -- A node with any other tag is a problem, whether it has a text or not.
    case h_8 => cases h
    all_goals
      next htag =>
      cases h
      exact .endless (by rw [htag]; decide) htext (recursion_of_scalarText htext)
  | ok text =>
    rw [htext] at h
    dsimp only [bind, Except.bind] at h
    split at h
    · cases h
    · cases h
    · next htag =>
      split at h
      · cases h
      · next hword =>
        cases h
        exact .word htag htext hword rfl
    · next htag =>
      have hvalue := map_eq_error_iff.1 (mapError_eq_defect_iff.1 h)
      refine .integer htag htext hvalue fun f hf => ?_
      exact overrun_of_intValue (hf ▸ hvalue)
    · next htag => exact .double htag htext (map_eq_error_iff.1 (mapError_eq_defect_iff.1 h))
    · -- Bytes that cannot be decoded are a problem.
      cases hbytes : bytesOf text with
      | ok bytes =>
        rw [hbytes] at h
        cases h
      | error p =>
        rw [hbytes] at h
        cases h
    · next htag =>
      split at h
      · cases htext
        cases htag
        exact .date rfl (mapError_eq_defect_iff.1 h)
      · next hn =>
        cases h
        exact .mapping htag hn htext rfl
    · cases h

theorem scalarValue_of_faulty {names : Names} {n : Node} {d : Defect} (h : Faulty names n d) :
    scalarValue names n = .error (.defect d) := by
  cases h with
  | endless htag htext hd =>
    unfold scalarValue
    rw [htext]
    simp only [List.mem_cons, List.not_mem_nil, or_false] at htag
    rcases htag with htag | htag | htag | htag | htag | htag | htag <;> rw [htag] <;> rfl
  | word htag htext hword hd =>
    unfold scalarValue
    rw [htag, htext, hd]
    dsimp only [bind, Except.bind]
    rw [hword]
    rfl
  | integer htag htext h =>
    unfold scalarValue
    rw [htag, htext]
    exact mapError_eq_defect_iff.2 (map_eq_error_iff.2 h)
  | double htag htext h =>
    unfold scalarValue
    rw [htag, htext]
    exact mapError_eq_defect_iff.2 (map_eq_error_iff.2 h)
  | date hn h =>
    subst hn
    exact mapError_eq_defect_iff.2 h
  | mapping htag hn htext hd =>
    unfold scalarValue
    rw [htag, htext, hd]
    cases n with
    | scalar tag text line => exact absurd rfl (hn tag text line)
    | _ => rfl

/-- **Exactly the faulty scalars have no value.** -/
theorem scalarValue_error_iff {names : Names} {n : Node} {d : Defect} :
    scalarValue names n = .error (.defect d) ↔ Faulty names n d :=
  ⟨faulty_of_scalarValue, scalarValue_of_faulty⟩

/-! ## Nodes in a tree -/

/-- Whether a node is a node of a tree. -/
inductive Inside (n : Node) : Node → Prop where
  | refl : Inside n n
  | item {tag : Tag} {items : List Node} {line : Nat} {m : Node} (hm : m ∈ items)
    (h : Inside n m) : Inside n (.sequence tag items line)
  | key {tag : Tag} {entries : List (Node × Node)} {line : Nat} {e : Node × Node}
    (he : e ∈ entries) (h : Inside n e.1) : Inside n (.mapping tag entries line)
  | value {tag : Tag} {entries : List (Node × Node)} {line : Nat} {e : Node × Node}
    (he : e ∈ entries) (h : Inside n e.2) : Inside n (.mapping tag entries line)

theorem Inside.trans {l m n : Node} (hlm : Inside l m) (hmn : Inside m n) : Inside l n := by
  induction hmn with
  | refl => exact hlm
  | item hm _ ih => exact .item hm ih
  | key he _ ih => exact .key he ih
  | value he _ ih => exact .value he ih

/-- Whether a node is met in a tree, where a key that is an equals sign counts as a string. -/
def Occurs (root n : Node) : Prop :=
  ∃ m, Inside m root ∧ (n = m ∨ n = plainKey m)

/-- Whether a scalar that is met in a tree is to blame for a defect. -/
def Blamed (names : Names) (root : Node) (d : Defect) : Prop :=
  ∃ n, Occurs root n ∧ Faulty names n d

variable {names : Names} {root n : Node} {α β : Type}

theorem Inside.occurs (h : Inside n root) : Occurs root n :=
  ⟨n, h, .inl rfl⟩

theorem Inside.occurs_key (h : Inside n root) : Occurs root (plainKey n) :=
  ⟨n, h, .inr rfl⟩

/-- No collection is taken for a string. -/
theorem Occurs.inside (h : Occurs root n) (hn : n.tag.isCollection = true) : Inside n root := by
  obtain ⟨m, hm, rfl | rfl⟩ := h
  · exact hm
  · unfold plainKey at hn ⊢
    split
    · cases hn
    · cases hn
    · cases hn
    · cases hn
    · exact hm

/-! ## Computations over a tree -/

/-- A computation whose results have a property, and whose defects are those of scalars that are met
in a tree. -/
structure Traced (names : Names) (root : Node) (P : α → Prop) (x : Except Fault α) : Prop where
  gives : x.Gives P
  blamed : ∀ d, x = .error (.defect d) → Blamed names root d

variable {P : α → Prop} {Q : β → Prop}

theorem Traced.bind {x : Except Fault α} {f : α → Except Fault β} (hx : Traced names root P x)
    (hf : ∀ a, P a → Traced names root Q (f a)) : Traced names root Q (x >>= f) := by
  refine ⟨hx.gives.bind fun a ha => (hf a ha).gives, fun d h => ?_⟩
  cases x with
  | error e =>
    cases h
    exact hx.blamed d rfl
  | ok a => exact (hf a (hx.gives a rfl)).blamed d h

theorem Traced.map {x : Except Fault α} {f : α → β} (hx : Traced names root P x)
    (hf : ∀ a, P a → Q (f a)) : Traced names root Q (x.map f) :=
  ⟨hx.gives.map hf, fun d h => hx.blamed d (eq_error_of_map h)⟩

theorem Traced.weaken {P' : α → Prop} {x : Except Fault α} (hx : Traced names root P x)
    (h : ∀ a, P a → P' a) : Traced names root P' x :=
  ⟨fun a ha => h a (hx.gives a ha), hx.blamed⟩

theorem traced_ok {a : α} (h : P a) : Traced names root P (.ok a) :=
  ⟨gives_ok h, nofun⟩

theorem traced_problem (p : Problem) (line : Nat) :
    Traced names root P (.error (.problem p line) : Except Fault α) :=
  ⟨gives_error _, nofun⟩

theorem traced_mapM {f : α → Except Fault β} {as : List α}
    (hf : ∀ a ∈ as, Traced names root Q (f a)) :
    Traced names root (fun bs => ∀ b ∈ bs, Q b) (as.mapM f) := by
  induction as with
  | nil => exact traced_ok (List.forall_mem_nil _)
  | cons a as ih =>
    obtain ⟨ha, has⟩ := List.forall_mem_cons.1 hf
    rw [List.mapM_cons]
    refine ha.bind fun b hb => (ih has).bind fun bs hbs => ?_
    exact traced_ok (List.forall_mem_cons.2 ⟨hb, hbs⟩)

/-! ## Collections -/

/-- Entries of which the keys and the values are met in a tree. -/
def Met (root : Node) (es : List (Node × Node)) : Prop :=
  ∀ e ∈ es, Occurs root e.1 ∧ Inside e.2 root

theorem met_append {es fs : List (Node × Node)} (hes : Met root es) (hfs : Met root fs) :
    Met root (es ++ fs) :=
  List.forall_mem_append.2 ⟨hes, hfs⟩

theorem inside_entries {tag : Tag} {entries : List (Node × Node)} {line : Nat}
    (h : Inside (.mapping tag entries line) root) :
    ∀ e ∈ entries, Inside e.1 root ∧ Inside e.2 root :=
  fun _ he => ⟨.trans (.key he .refl) h, .trans (.value he .refl) h⟩

mutual

theorem traced_flatten : (n : Node) → Inside n root → Traced names root (Met root) (flatten n)
  | .mapping _ entries _, h => by
    rw [flatten]
    refine (traced_flattenEntries entries (inside_entries h)).bind ?_
    rintro ⟨taken, own⟩ ⟨htaken, hown⟩
    exact traced_ok (met_append htaken hown)
  | .scalar .., _ | .sequence .., _ | .within .., _ => traced_ok (List.forall_mem_nil _)

theorem traced_flattenEntries : (es : List (Node × Node)) →
    (∀ e ∈ es, Inside e.1 root ∧ Inside e.2 root) →
    Traced names root (fun p => Met root p.1 ∧ Met root p.2) (flattenEntries es)
  | [], _ => traced_ok ⟨List.forall_mem_nil _, List.forall_mem_nil _⟩
  | (k, v) :: r, h => by
    obtain ⟨⟨hk, hv⟩, hr⟩ := List.forall_mem_cons.1 h
    rw [flattenEntries]
    split
    · -- The key itself is gone; what its value brings in is met in the tree as well.
      refine (traced_takenFrom v hv).bind fun first hfirst => ?_
      refine (traced_flattenEntries r hr).bind ?_
      rintro ⟨taken, own⟩ ⟨htaken, hown⟩
      exact traced_ok ⟨met_append hfirst htaken, hown⟩
    · refine (traced_flattenEntries r hr).bind ?_
      rintro ⟨taken, own⟩ ⟨htaken, hown⟩
      exact traced_ok ⟨htaken, List.forall_mem_cons.2 ⟨⟨hk.occurs_key, hv⟩, hown⟩⟩

theorem traced_takenFrom : (v : Node) → Inside v root →
    Traced names root (Met root) (takenFrom v)
  | .mapping _ entries _, h => by
    rw [takenFrom]
    refine (traced_flattenEntries entries (inside_entries h)).bind ?_
    rintro ⟨taken, own⟩ ⟨htaken, hown⟩
    exact traced_ok (met_append htaken hown)
  | .sequence _ items _, h => by
    rw [takenFrom]
    refine (traced_takenFromAll items fun m hm => .trans (.item hm .refl) h).bind fun ess hess => ?_
    refine traced_ok fun e he => ?_
    obtain ⟨es, hes, he⟩ := List.mem_flatten.1 he
    exact hess es (List.mem_reverse.1 hes) e he
  | .scalar .., _ => traced_problem _ _
  | .within .., _ => traced_ok (List.forall_mem_nil _)

theorem traced_takenFromAll : (ns : List Node) → (∀ n ∈ ns, Inside n root) →
    Traced names root (fun ess => ∀ es ∈ ess, Met root es) (takenFromAll ns)
  | [], _ => traced_ok (List.forall_mem_nil _)
  | .mapping _ entries _ :: r, h => by
    obtain ⟨hn, hr⟩ := List.forall_mem_cons.1 h
    rw [takenFromAll]
    refine (traced_flattenEntries entries (inside_entries hn)).bind ?_
    rintro ⟨taken, own⟩ ⟨htaken, hown⟩
    refine (traced_takenFromAll r hr).bind fun ess hess => ?_
    exact traced_ok (List.forall_mem_cons.2 ⟨met_append htaken hown, hess⟩)
  | .within _ true _ _ :: r, h => traced_takenFromAll r (List.forall_mem_cons.1 h).2
  | .within _ false _ _ :: _, _ | .scalar .. :: _, _ | .sequence .. :: _, _ => traced_problem _ _

end

theorem traced_fail (m : Node) (p : Problem) : Traced names root P (m.fail p : Except Fault α) :=
  traced_problem p m.line

theorem traced_entriesOf (h : Inside n root) : Traced names root (Met root) (entriesOf n) := by
  cases n with
  | mapping => exact traced_flatten _ h
  | within name isMapping =>
    cases isMapping with
    | true => exact traced_ok (List.forall_mem_nil _)
    | false => exact traced_fail _ _
  | _ => exact traced_fail _ _

theorem inside_items {tag : Tag} {items : List Node} {line : Nat}
    (h : Inside (.sequence tag items line) root) : ∀ m ∈ items, Inside m root :=
  fun _ hm => .trans (.item hm .refl) h

theorem traced_itemsOf (h : Inside n root) :
    Traced names root (fun ms => ∀ m ∈ ms, Inside m root) (itemsOf n) := by
  cases n with
  | sequence => exact traced_ok (inside_items h)
  | within name isMapping =>
    cases isMapping with
    | false => exact traced_ok (List.forall_mem_nil _)
    | true => exact traced_fail _ _
  | _ => exact traced_fail _ _

theorem traced_pairItemsOf (h : Inside n root) :
    Traced names root (fun ms => ∀ m ∈ ms, Inside m root) (pairItemsOf n) := by
  cases n with
  | sequence => exact traced_ok (inside_items h)
  | within name isMapping =>
    cases isMapping with
    | false => exact traced_ok (List.forall_mem_nil _)
    | true => exact traced_fail _ _
  | _ => exact traced_fail _ _

theorem traced_pairOf (h : Inside n root) :
    Traced names root (fun e => Inside e.1 root ∧ Inside e.2 root) (pairOf n) := by
  unfold pairOf
  split
  · next e _ => exact traced_ok (inside_entries h e List.mem_cons_self)
  · exact traced_fail _ _
  · exact traced_fail _ _
  · exact traced_fail _ _

/-! ## Faults, level by level -/

theorem traced_scalarValue (h : Occurs root n) :
    Traced names root (fun _ => True) (scalarValue names n) :=
  ⟨fun _ _ => trivial, fun _ hd => ⟨n, h, scalarValue_error_iff.1 hd⟩⟩

theorem traced_meet (h : Occurs root n) :
    Traced names root (fun ms => ∀ m ∈ ms, Inside m root) (meet names n) := by
  unfold meet
  split
  · next hn => exact traced_ok (List.forall_mem_singleton.2 (h.inside hn))
  · exact (traced_scalarValue h).map fun _ _ => List.forall_mem_nil _

theorem traced_meetKey (h : Occurs root n) :
    Traced names root (fun _ => True) (meetKey names n) := by
  unfold meetKey
  split
  · exact traced_fail _ _
  · exact (traced_scalarValue h).map fun _ _ => trivial

theorem traced_meetEntries {es : List (Node × Node)} (h : Met root es) :
    Traced names root (fun ms => ∀ m ∈ ms, Inside m root) (meetEntries names es) := by
  induction es with
  | nil => exact traced_ok (List.forall_mem_nil _)
  | cons e es ih =>
    obtain ⟨⟨hk, hv⟩, hes⟩ := List.forall_mem_cons.1 h
    refine (traced_meetKey hk).bind fun _ _ => (traced_meet hv.occurs).bind fun ms hms => ?_
    exact (ih hes).bind fun ms' hms' => traced_ok (List.forall_mem_append.2 ⟨hms, hms'⟩)

theorem traced_meetAll {ns : List Node} (h : ∀ n ∈ ns, Inside n root) :
    Traced names root (fun ms => ∀ m ∈ ms, Inside m root) (meetAll names ns) := by
  induction ns with
  | nil => exact traced_ok (List.forall_mem_nil _)
  | cons n ns ih =>
    obtain ⟨hn, hns⟩ := List.forall_mem_cons.1 h
    refine (traced_meet hn.occurs).bind fun ms hms => ?_
    exact (ih hns).bind fun ms' hms' => traced_ok (List.forall_mem_append.2 ⟨hms, hms'⟩)

theorem traced_meetPairs {ns : List Node} (h : ∀ n ∈ ns, Inside n root) :
    Traced names root (fun ms => ∀ m ∈ ms, Inside m root) (meetPairs names ns) := by
  induction ns with
  | nil => exact traced_ok (List.forall_mem_nil _)
  | cons n ns ih =>
    obtain ⟨hn, hns⟩ := List.forall_mem_cons.1 h
    refine (traced_pairOf hn).bind ?_
    rintro ⟨k, v⟩ ⟨hk, hv⟩
    refine (traced_meet hk.occurs).bind fun ms hms => ?_
    refine (traced_meet hv.occurs).bind fun ms' hms' => ?_
    refine (ih hns).bind fun ms'' hms'' => traced_ok ?_
    exact List.forall_mem_append.2 ⟨List.forall_mem_append.2 ⟨hms, hms'⟩, hms''⟩

theorem traced_meetCollection (h : Inside n root) :
    Traced names root (fun ms => ∀ m ∈ ms, Inside m root) (meetCollection names n) := by
  unfold meetCollection
  split
  · exact (traced_itemsOf h).bind fun _ => traced_meetAll
  · exact (traced_entriesOf h).bind fun _ => traced_meetEntries
  · exact (traced_entriesOf h).bind fun _ => traced_meetEntries
  · exact (traced_pairItemsOf h).bind fun _ => traced_meetPairs

theorem traced_checkLevels (levels : Nat) {ns : List Node} (h : ∀ n ∈ ns, Inside n root) :
    Traced names root (fun _ => True) (checkLevels names levels ns) := by
  induction levels generalizing ns with
  | zero => exact traced_ok trivial
  | succ levels ih =>
    refine (traced_mapM fun m hm => traced_meetCollection (h m hm)).bind fun next hnext => ?_
    split
    · exact traced_ok trivial
    · -- What a level leaves for the next one is met in the tree too.
      refine ih fun m hm => ?_
      obtain ⟨ms, hms, hm⟩ := List.mem_flatten.1 hm
      exact hnext ms hms m hm

/-! ## Values -/

theorem traced_toValue (depth : Nat) (h : Occurs root n) :
    Traced names root (fun _ => True) (Node.toValue names depth n) := by
  induction depth generalizing n with
  | zero => exact traced_fail _ _
  | succ depth ih =>
    have hentry (e : Node × Node) (he : Occurs root e.1 ∧ Occurs root e.2) :
        Traced names root (fun _ => True) (do
          let k ← Node.toValue names depth e.1
          let v ← Node.toValue names depth e.2
          return (k, v)) :=
      (ih he.1).bind fun _ _ => (ih he.2).bind fun _ _ => traced_ok trivial
    have hentries (es : List (Node × Node)) (hes : ∀ e ∈ es, Occurs root e.1 ∧ Occurs root e.2) :
        Traced names root (fun _ => True) (es.mapM fun e => do
          let k ← Node.toValue names depth e.1
          let v ← Node.toValue names depth e.2
          return (k, v)) :=
      (traced_mapM fun e he => hentry e (hes e he)).weaken fun _ _ => trivial
    have hmet (es : List (Node × Node)) (hes : Met root es) : ∀ e ∈ es,
        Occurs root e.1 ∧ Occurs root e.2 :=
      fun e he => ⟨(hes e he).1, (hes e he).2.occurs⟩
    have hpairs (hn : Inside n root) : Traced names root (fun _ => True) (do
        let pairs ← (← pairItemsOf n).mapM pairOf
        let values ← pairs.mapM fun e => do
          let k ← Node.toValue names depth e.1
          let v ← Node.toValue names depth e.2
          return (k, v)
        return Value.list (values.map fun e => .pair e.1 e.2)) := by
      refine (traced_pairItemsOf hn).bind fun ms hms => ?_
      refine (traced_mapM fun m hm => traced_pairOf (hms m hm)).bind fun es hes => ?_
      exact (hentries es fun e he => ⟨(hes e he).1.occurs, (hes e he).2.occurs⟩).bind fun _ _ =>
        traced_ok trivial
    rw [Node.toValue]
    -- The tag decides what becomes of a node, and only that of a collection leads further down.
    split
    · next htag =>
      refine (traced_itemsOf (h.inside (by rw [htag]; rfl))).bind fun ms hms => ?_
      exact (traced_mapM fun m hm => ih (hms m hm).occurs).bind fun _ _ => traced_ok trivial
    · next htag =>
      refine (traced_entriesOf (h.inside (by rw [htag]; rfl))).bind fun es hes => ?_
      exact (hentries es (hmet es hes)).bind fun _ _ => traced_ok trivial
    · next htag =>
      refine (traced_entriesOf (h.inside (by rw [htag]; rfl))).bind fun es hes => ?_
      exact (hentries es (hmet es hes)).bind fun _ _ => traced_ok trivial
    · next htag => exact hpairs (h.inside (by rw [htag]; rfl))
    · next htag => exact hpairs (h.inside (by rw [htag]; rfl))
    · exact traced_scalarValue h

/-- **A tree without a value has a scalar that is to blame.** -/
theorem blamed_of_toValue {depth : Nat} {t : Tree} {d : Defect}
    (h : t.toValue depth = .error (.defect d)) : Blamed t.names t.root d := by
  have hroot : Inside t.root t.root := .refl
  -- The levels look for the faults of all scalars before any value is made of them.
  have htraced : Traced t.names t.root (fun _ => True) (t.toValue depth) := by
    refine (traced_meet hroot.occurs).bind fun first hfirst => ?_
    exact (traced_checkLevels depth hfirst).bind fun _ _ => traced_toValue depth hroot.occurs
  exact htraced.blamed d h

/-! ## Texts -/

/-- Where the defect arises because of which a text of readable characters has no value. -/
inductive Origin (s : List Char) (d : Defect) : Prop where
  /-- The tokens end with it. -/
  | token {tokens : List Token} (htokens : tokenize s = (tokens, some (.defect d)))
    (h : Tree.ofTokens? tokens (some (.defect d)) = .error (.defect d))
  /-- The tokens open more collections within each other than there is room for. -/
  | nesting (hd : d = .recursion) (hroom : callRoom < 2 * openings (tokenize s).1)
    (h : Tree.ofTokens? (tokenize s).1 (tokenize s).2 = .error (.defect d))
  /-- A scalar of the tree that the tokens spell is to blame. -/
  | scalar {t : Tree} (htree : Tree.ofTokens? (tokenize s).1 (tokenize s).2 = .ok (some t))
    (hblamed : Blamed t.names t.root d)
    (h : t.toValue (4 * s.length + 8) = .error (.defect d))

/-- Whether a text has no value because of a defect. -/
structure Meaningless (s : List Char) (d : Defect) : Prop where
  readable : ∀ c ∈ s, isReadable c = true
  origin : Origin s d

theorem find?_unreadable_eq_none_iff {s : List Char} :
    (s.zipIdx.find? fun p => !isReadable p.1) = none ↔ ∀ c ∈ s, isReadable c = true := by
  rw [List.find?_eq_none]
  constructor
  · intro h c hc
    rw [← List.zipIdx_map_fst 0 s] at hc
    obtain ⟨p, hp, rfl⟩ := List.mem_map.1 hc
    simpa using h p hp
  · intro h p hp
    simpa using h p.1 (List.fst_mem_of_mem_zipIdx hp)

/-- **Exactly the texts in which a defect arises have no value because of it.** -/
theorem load_error_iff {s : List Char} {d : Defect} :
    load s = .error (.defect d) ↔ Meaningless s d := by
  have hparts : Meaningless s d ↔ (∀ c ∈ s, isReadable c = true) ∧ Origin s d :=
    ⟨fun h => ⟨h.readable, h.origin⟩, fun h => ⟨h.1, h.2⟩⟩
  rw [hparts, ← find?_unreadable_eq_none_iff]
  unfold load
  cases hfind : s.zipIdx.find? fun p => !isReadable p.1 with
  | some p => exact iff_of_false nofun nofun
  | none =>
    refine Iff.trans ?_ (and_iff_right rfl).symm
    dsimp only
    rcases htokens : tokenize s with ⟨tokens, fault⟩
    constructor
    · intro h
      cases htree : Tree.ofTokens? tokens fault with
      | error e =>
        have he : e = .defect d := by
          rw [htree] at h
          cases h
          rfl
        subst he
        -- A problem is no defect, and the tokens bring only the fault that they end with.
        rcases expected_of_ofTokens? htree with ⟨p, line, hp⟩ | rfl | ⟨hd, hroom⟩
        · cases hp
        · exact .token htokens htree
        · cases hd
          exact .nesting rfl (by rwa [htokens]) (by rwa [htokens])
      | ok t? =>
        rw [htree] at h
        cases t? with
        | none => cases h
        | some t => exact .scalar (by rwa [htokens]) (blamed_of_toValue h) h
    · intro h
      cases h with
      | token htokens' h =>
        cases htokens.symm.trans htokens'
        rw [h]
        rfl
      | nesting _ _ h =>
        rw [htokens] at h
        rw [h]
        rfl
      | scalar htree _ h =>
        rw [htokens] at htree
        rw [htree]
        exact h

/-- A mapping that stands for a date has a text, but the date is not read from it. -/
example : Meaningless "d: !!timestamp {=: 2020-01-01}".toList .notText :=
  load_error_iff.1 (eq_error_of_map (f := fun _ => ()) (by decide +kernel))

/-- The text of a mapping that is its own text is looked for without end. -/
example : Meaningless "d: !!str &x {=: *x}".toList .recursion :=
  load_error_iff.1 (eq_error_of_map (f := fun _ => ()) (by decide +kernel))

end Storyline.Yaml
