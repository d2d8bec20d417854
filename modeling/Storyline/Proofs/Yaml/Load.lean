import Storyline.Proofs.Yaml.Nodes
import Storyline.Yaml.Document

/-!
# The values of written data

A tree of nodes that stands for data has no fault at any level, and its value is the data with every
string read back.

## Main definitions

* `scalars`: the scalars of data, at every depth
* `reread`: data as it is read back

## Main results

* `toValue_scalar`, `toValue_list`, `toValue_map`: the value of a tree
* `checkLevels_spells`: no level of a tree has a fault
-/

namespace Storyline.Yaml

/-! ## Data that is read back -/

mutual

/-- The scalars of data, keys among them, at every depth. -/
def scalars : Value → List Value
  | .list items => scalarsOfItems items
  | .map entries => scalarsOfEntries entries
  | v => [v]

/-- The scalars of items. -/
def scalarsOfItems : List Value → List Value
  | [] => []
  | v :: vs => scalars v ++ scalarsOfItems vs

/-- The scalars of entries. -/
def scalarsOfEntries : List (Value × Value) → List Value
  | [] => []
  | (k, v) :: es => scalars k ++ (scalars v ++ scalarsOfEntries es)

end

theorem mem_scalarsOfItems {vs : List Value} {u : Value} :
    u ∈ scalarsOfItems vs ↔ ∃ v ∈ vs, u ∈ scalars v := by
  induction vs with
  | nil => simp [scalarsOfItems]
  | cons v vs ih => simp [scalarsOfItems, ih]

theorem mem_scalarsOfEntries {es : List (Value × Value)} {u : Value} :
    u ∈ scalarsOfEntries es ↔ ∃ e ∈ es, u ∈ scalars e.1 ∨ u ∈ scalars e.2 := by
  induction es with
  | nil => simp [scalarsOfEntries]
  | cons e es ih => simp [scalarsOfEntries, ih, or_assoc]

/-- A string as it is read back. -/
def rereadString (s : String) : String :=
  String.ofList (rereadChars s.toList)

mutual

/-- Data as it is read back. -/
def reread : Value → Value
  | .str s => .str (rereadString s)
  | .list items => .list (rereadItems items)
  | .map entries => .map (collect (rereadEntries entries))
  | v => v

/-- Items as they are read back. -/
def rereadItems : List Value → List Value
  | [] => []
  | v :: vs => reread v :: rereadItems vs

/-- Entries as they are read back. -/
def rereadEntries : List (Value × Value) → List (Value × Value)
  | [] => []
  | (k, v) :: es => (reread k, reread v) :: rereadEntries es

end

theorem rereadItems_eq_map (vs : List Value) : rereadItems vs = vs.map reread := by
  induction vs with
  | nil => rfl
  | cons v vs ih => rw [rereadItems, List.map_cons, ih]

theorem rereadEntries_eq_map (es : List (Value × Value)) :
    rereadEntries es = es.map fun e => (reread e.1, reread e.2) := by
  induction es with
  | nil => rfl
  | cons e es ih => rw [rereadEntries, List.map_cons, ih]

/-- Whether an integer is short enough to be read and written. -/
def IntFits (n : Int) : Prop :=
  (Nat.toDigits 10 n.natAbs).length ≤ digitLimit

/-- Whether all integers of data are short enough. -/
def Countable (v : Value) : Prop :=
  ∀ n, .int n ∈ scalars v → IntFits n

/-! ## Scalars -/

variable (names : Names)

theorem scalarText_scalar (room : Nat) (tag : Tag) (text : List Char) (line : Nat) :
    scalarText names room (.scalar tag text line) = .ok text := by
  cases room <;> rfl

/-- A scalar node has the value that it stands for. -/
theorem scalarValue_spells {v : Value} {n : Node} (h : Spells v n) (hv : Countable v)
    (hn : n.tag.isCollection = false) : scalarValue names n = .ok (reread v) := by
  cases h with
  | bool b line =>
    rw [scalarValue]
    dsimp only [Node.tag]
    rw [scalarText_scalar]
    cases b <;> rfl
  | int k line =>
    have hk : IntFits k := hv k (List.mem_singleton_self (Value.int k))
    rw [scalarValue]
    dsimp only [Node.tag]
    rw [scalarText_scalar]
    show ((intValue (Number.intDigits k)).map Value.int).mapError Fault.defect = _
    rw [intValue_intDigits hk]
    rfl
  | float x line =>
    rw [scalarValue]
    dsimp only [Node.tag]
    rw [scalarText_scalar]
    show ((floatValue (Number.render floatLayout x).toList).map Value.float).mapError Fault.defect =
      _
    rw [floatValue_render]
    rfl
  | str s line =>
    rw [scalarValue]
    dsimp only [Node.tag]
    rw [scalarText_scalar]
    rfl
  | list => cases hn
  | map => cases hn

/-! ## Collections -/

/-- No key of a tree is a mark for other mappings, so its entries are its own. -/
theorem entriesOf_spells {es : List (Value × Value)} {ns : List (Node × Node)}
    (hkeys : ∀ e ∈ es, ∃ k, e.1 = .str k) (h : List.Forall₂ SpellsEntry es ns) (line : Nat) :
    entriesOf (.mapping .map ns line) = .ok ns := by
  have hflatten : flattenEntries ns = .ok ([], ns) := by
    induction h with
    | nil => rfl
    | @cons e n es ns hn hns ih =>
      obtain ⟨k, hk⟩ := hkeys e List.mem_cons_self
      obtain ⟨j, v⟩ := e
      obtain ⟨a, b⟩ := n
      obtain rfl : j = .str k := hk
      obtain ⟨hkey, -⟩ := hn
      cases hkey
      rw [flattenEntries, ih fun e he => hkeys e (List.mem_cons_of_mem _ he)]
      rfl
  rw [entriesOf, flatten, hflatten]
  rfl

theorem countable_of_mem_list {vs : List Value} (h : Countable (.list vs)) {v : Value}
    (hv : v ∈ vs) : Countable v :=
  fun n hn => h n (mem_scalarsOfItems.2 ⟨v, hv, hn⟩)

theorem countable_of_mem_map {es : List (Value × Value)} (h : Countable (.map es))
    {e : Value × Value} (he : e ∈ es) : Countable e.1 ∧ Countable e.2 :=
  ⟨fun n hn => h n (mem_scalarsOfEntries.2 ⟨e, he, .inl hn⟩),
    fun n hn => h n (mem_scalarsOfEntries.2 ⟨e, he, .inr hn⟩)⟩

theorem forall₂_of_spells_list {vs : List Value} {n : Node} (h : Spells (.list vs) n) :
    ∃ ns line, n = .sequence .seq ns line ∧ List.Forall₂ Spells vs ns := by
  cases h with
  | list hlength h line =>
    exact ⟨_, line, rfl, List.forall₂_iff_zip.2 ⟨hlength, fun hp => h _ hp⟩⟩

theorem forall₂_of_spells_map {es : List (Value × Value)} {n : Node} (h : Spells (.map es) n) :
    ∃ ns line, n = .mapping .map ns line ∧ List.Forall₂ SpellsEntry es ns := by
  cases h with
  | map hlength hkeys h line =>
    exact ⟨_, line, rfl, List.forall₂_iff_zip.2 ⟨hlength, fun hp => ⟨hkeys _ hp, h _ hp⟩⟩⟩

theorem exists_of_mem_forall₂ {α β : Type} {R : α → β → Prop} {xs : List α} {ys : List β}
    (h : List.Forall₂ R xs ys) {y : β} (hy : y ∈ ys) : ∃ x ∈ xs, R x y := by
  induction h with
  | nil => cases hy
  | @cons x z xs zs hx hxs ih =>
    rcases List.mem_cons.1 hy with rfl | hy
    · exact ⟨x, List.mem_cons_self, hx⟩
    · obtain ⟨x', hx', hR⟩ := ih hy
      exact ⟨x', List.mem_cons_of_mem x hx', hR⟩

/-! ## Levels -/

/-- A node that stands for data. -/
def Sound (n : Node) : Prop :=
  ∃ v, Data v ∧ Countable v ∧ Spells v n

/-- A node that stands for a collection of data. -/
def Pending (n : Node) : Prop :=
  Sound n ∧ n.tag.isCollection = true

/-- A node that stands for data has no fault of its own; if it is a collection, it is left. -/
theorem exists_meet {n : Node} (hn : Sound n) :
    ∃ ns, meet names n = .ok ns ∧ ∀ m ∈ ns, Pending m := by
  rw [meet]
  split
  · next h => exact ⟨[n], rfl, fun m hm => by rw [List.mem_singleton.1 hm]; exact ⟨hn, h⟩⟩
  · next h =>
    obtain ⟨v, -, hcount, hspells⟩ := hn
    rw [scalarValue_spells names hspells hcount (by simpa using h)]
    exact ⟨[], rfl, by simp⟩

theorem exists_meetAll {ns : List Node} (hns : ∀ n ∈ ns, Sound n) :
    ∃ ms, meetAll names ns = .ok ms ∧ ∀ m ∈ ms, Pending m := by
  induction ns with
  | nil => exact ⟨[], rfl, by simp⟩
  | cons n ns ih =>
    obtain ⟨ms, hms, hsound⟩ := exists_meet names (hns n List.mem_cons_self)
    obtain ⟨ms', hms', hsound'⟩ := ih fun m hm => hns m (List.mem_cons_of_mem n hm)
    refine ⟨ms ++ ms', ?_, ?_⟩
    · rw [meetAll, hms, hms']
      rfl
    · intro m hm
      exact (List.mem_append.1 hm).elim (hsound m) (hsound' m)

theorem exists_meetEntries {ns : List (Node × Node)}
    (hns : ∀ n ∈ ns, (∃ k, Spells (.str k) n.1) ∧ Sound n.2) :
    ∃ ms, meetEntries names ns = .ok ms ∧ ∀ m ∈ ms, Pending m := by
  induction ns with
  | nil => exact ⟨[], rfl, by simp⟩
  | cons n ns ih =>
    obtain ⟨a, b⟩ := n
    obtain ⟨⟨k, hk⟩, hvalue⟩ := hns (a, b) List.mem_cons_self
    obtain ⟨ms, hms, hsound⟩ := exists_meet names hvalue
    obtain ⟨ms', hms', hsound'⟩ := ih fun m hm => hns m (List.mem_cons_of_mem _ hm)
    -- A key is a string, which has a value of its own.
    have hkey : meetKey names a = .ok () := by
      have hnot : a.tag.isCollection = false := by
        cases hk
        rfl
      have hcount : Countable (.str k) := by
        intro n hn
        cases List.mem_singleton.1 hn
      rw [meetKey, hnot, if_neg Bool.false_ne_true, scalarValue_spells names hk hcount hnot]
      rfl
    refine ⟨ms ++ ms', ?_, ?_⟩
    · rw [meetEntries, hkey, hms, hms']
      rfl
    · intro m hm
      exact (List.mem_append.1 hm).elim (hsound m) (hsound' m)

/-- A collection that stands for data has no fault, and neither has what is left of it. -/
theorem exists_meetCollection {n : Node} (hn : Pending n) :
    ∃ ms, meetCollection names n = .ok ms ∧ ∀ m ∈ ms, Pending m := by
  obtain ⟨⟨v, hdata, hcount, hspells⟩, hcollection⟩ := hn
  cases hdata with
  | @list vs hitems =>
    obtain ⟨ns, line, rfl, hns⟩ := forall₂_of_spells_list hspells
    have hsound : ∀ n ∈ ns, Sound n := by
      intro n hn
      obtain ⟨v, hv, hspells⟩ := exists_of_mem_forall₂ hns hn
      exact ⟨v, hitems v hv, countable_of_mem_list hcount hv, hspells⟩
    exact exists_meetAll names hsound
  | @map es hkeys hvalues =>
    obtain ⟨ns, line, rfl, hns⟩ := forall₂_of_spells_map hspells
    have hsound : ∀ n ∈ ns, (∃ k, Spells (.str k) n.1) ∧ Sound n.2 := by
      intro n hn
      obtain ⟨e, he, hkey, hvalue⟩ := exists_of_mem_forall₂ hns hn
      obtain ⟨k, hk⟩ := hkeys e he
      refine ⟨⟨k, ?_⟩, e.2, hvalues e he, (countable_of_mem_map hcount he).2, hvalue⟩
      rwa [hk] at hkey
    have hmeet : meetCollection names (.mapping .map ns line) = meetEntries names ns := by
      show (entriesOf (.mapping .map ns line) >>= meetEntries names) = _
      rw [entriesOf_spells hkeys hns]
      rfl
    rw [hmeet]
    exact exists_meetEntries names hsound
  | _ =>
    cases hspells
    cases hcollection

/-- **No level of data has a fault.** -/
theorem checkLevels_spells {ns : List Node} (hns : ∀ n ∈ ns, Pending n) (levels : Nat) :
    checkLevels names levels ns = .ok () := by
  induction levels generalizing ns with
  | zero => rfl
  | succ levels ih =>
    -- The collections that a level leaves stand for data again.
    obtain ⟨next, hnext, hpending⟩ : ∃ next, ns.mapM (meetCollection names) = .ok next ∧
        ∀ m ∈ next.flatten, Pending m := by
      clear ih
      induction ns with
      | nil => exact ⟨[], rfl, by simp⟩
      | cons n ns ih =>
        obtain ⟨ms, hms, hsound⟩ := exists_meetCollection names (hns n List.mem_cons_self)
        obtain ⟨next, hnext, hsound'⟩ := ih fun m hm => hns m (List.mem_cons_of_mem n hm)
        refine ⟨ms :: next, ?_, ?_⟩
        · rw [List.mapM_cons, hms, hnext]
          rfl
        · intro m hm
          rw [List.flatten_cons, List.mem_append] at hm
          exact hm.elim (hsound m) (hsound' m)
    rw [checkLevels, hnext]
    show (if next.flatten.isEmpty then _ else _ : Except Fault Unit) = _
    split
    · rfl
    · exact ih hpending

/-! ## Values -/

theorem toValue_scalar {v : Value} {n : Node} (h : Spells v n) (hv : Countable v)
    (hn : n.tag.isCollection = false) (depth : Nat) :
    n.toValue names (depth + 1) = .ok (reread v) := by
  have hscalar := scalarValue_spells names h hv hn
  cases h with
  | list => cases hn
  | map => cases hn
  | _ => exact hscalar

theorem toValue_list {vs : List Value} {ns : List Node} {depth : Nat}
    (h : List.Forall₂ (fun v n => n.toValue names depth = .ok (reread v)) vs ns) (line : Nat) :
    Node.toValue names (depth + 1) (.sequence .seq ns line) = .ok (reread (.list vs)) := by
  have hvalues : ns.mapM (Node.toValue names depth) = .ok (vs.map reread) := by
    rw [Except.mapM_eq_ok_iff]
    induction h with
    | nil => exact .nil
    | cons hn hns ih => exact .cons hn ih
  show (ns.mapM (Node.toValue names depth) >>= fun vs =>
    (Except.ok (Value.list vs) : Except Fault Value)) = _
  rw [hvalues, reread, rereadItems_eq_map]
  rfl

theorem toValue_map {es : List (Value × Value)} {ns : List (Node × Node)} {depth : Nat}
    (hkeys : ∀ e ∈ es, ∃ k, e.1 = .str k) (hspells : List.Forall₂ SpellsEntry es ns)
    (h : List.Forall₂ (fun e n => n.2.toValue names (depth + 1) = .ok (reread e.2)) es ns)
    (line : Nat) :
    Node.toValue names (depth + 2) (.mapping .map ns line) = .ok (reread (.map es)) := by
  have hvalues : ns.mapM (fun e => do
      let k ← e.1.toValue names (depth + 1)
      let v ← e.2.toValue names (depth + 1)
      return (k, v)) = .ok (es.map fun e => (reread e.1, reread e.2)) := by
    rw [Except.mapM_eq_ok_iff]
    induction h with
    | nil => exact .nil
    | @cons e n es ns hn hns ih =>
      cases hspells with
      | cons hentry hspells =>
        refine .cons ?_ (ih (fun e he => hkeys e (List.mem_cons_of_mem _ he)) hspells)
        obtain ⟨k, hk⟩ := hkeys e List.mem_cons_self
        obtain ⟨a, b⟩ := n
        -- Keys are scalars, so one level is enough for them.
        have hkey : a.toValue names (depth + 1) = .ok (reread e.1) := by
          have hspell := hentry.1
          rw [hk] at hspell ⊢
          refine toValue_scalar names hspell (fun m hm => ?_) ?_ depth
          · cases List.mem_singleton.1 hm
          · cases hspell
            rfl
        rw [hkey, show b.toValue names (depth + 1) = _ from hn]
        rfl
  show (entriesOf (.mapping .map ns line) >>= fun es => es.mapM _ >>= fun es =>
    (Except.ok (Value.map (collect es)) : Except Fault Value)) = _
  rw [entriesOf_spells hkeys hspells]
  show (ns.mapM _ >>= fun es => (Except.ok (Value.map (collect es)) : Except Fault Value)) = _
  rw [hvalues, reread, rereadEntries_eq_map]
  rfl

end Storyline.Yaml
