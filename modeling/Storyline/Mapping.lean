/-!
# Mappings that keep their order

A mapping from names to values that remembers the order in which the names came in.  Writing to a
name that is there keeps its place; a new name goes to the end.

## Main definitions

* `Mapping α`: pairs with distinct names
* `Mapping.get?`, `Mapping.insert`, `Mapping.ofList`, `Mapping.map`: look-up, writing, building

## Main results

* `get?_insert`: a write is read back at its name, and nowhere else
* `keys_insert_of_mem`, `keys_insert_of_not_mem`: what a write does to the order
* `toList_ofList`: pairs with distinct names are kept as they are
-/

namespace Storyline

/-- Writes a value to a name among pairs: in place if the name is there, else at the end. -/
def insertPair {α : Type} (k : String) (v : α) : List (String × α) → List (String × α)
  | [] => [(k, v)]
  | p :: r => if p.1 = k then (k, v) :: r else p :: insertPair k v r

theorem map_fst_insertPair {α : Type} (k : String) (v : α) (ps : List (String × α)) :
    (insertPair k v ps).map Prod.fst =
      if k ∈ ps.map Prod.fst then ps.map Prod.fst else ps.map Prod.fst ++ [k] := by
  induction ps with
  | nil => simp [insertPair]
  | cons p r ih =>
    by_cases h : p.1 = k
    · simp [insertPair, h]
    · have h' : k ≠ p.1 := fun e => h e.symm
      by_cases hk : k ∈ r.map Prod.fst
      · rw [if_pos hk] at ih
        rw [if_pos (by simpa using Or.inr (by simpa using hk))]
        simp [insertPair, h, ih]
      · rw [if_neg hk] at ih
        rw [if_neg (by
          intro hm
          rw [List.map_cons, List.mem_cons] at hm
          exact hm.elim h' hk)]
        simp [insertPair, h, ih]

theorem lookup_insertPair {α : Type} (k j : String) (v : α) (ps : List (String × α)) :
    (insertPair k v ps).lookup j = if j = k then some v else ps.lookup j := by
  induction ps with
  | nil =>
    by_cases h : j = k
    · subst h; simp [insertPair]
    · simp [insertPair, h]
  | cons p r ih =>
    obtain ⟨a, b⟩ := p
    by_cases h : a = k
    · subst h
      by_cases hj : j = a
      · subst hj; simp [insertPair]
      · have : (j == a) = false := by simpa using hj
        simp [insertPair, List.lookup_cons, this, hj]
    · by_cases hj : j = a
      · subst hj
        simp [insertPair, h]
      · have : (j == a) = false := by simpa using hj
        simp [insertPair, List.lookup_cons, h, this, ih]

/-- Pairs with distinct names, in the order in which the names came in. -/
structure Mapping (α : Type) where
  toList : List (String × α)
  nodup : (toList.map Prod.fst).Nodup := by simp

namespace Mapping

variable {α β : Type}

/-- The mapping without names. -/
def empty : Mapping α :=
  { toList := [] }

instance : Inhabited (Mapping α) := ⟨empty⟩

instance [Repr α] : Repr (Mapping α) := ⟨fun m n => reprPrec m.toList n⟩

instance [BEq α] : BEq (Mapping α) := ⟨fun m n => m.toList == n.toList⟩

theorem ext_toList {m n : Mapping α} (h : m.toList = n.toList) : m = n := by
  cases m; cases n; simp_all

instance [DecidableEq α] : DecidableEq (Mapping α) := fun m n =>
  if h : m.toList = n.toList then isTrue (ext_toList h) else isFalse fun e => h (e ▸ rfl)

/-- The names, in order. -/
def keys (m : Mapping α) : List String :=
  m.toList.map Prod.fst

/-- The values, in the order of their names. -/
def values (m : Mapping α) : List α :=
  m.toList.map Prod.snd

/-- The number of names. -/
def size (m : Mapping α) : Nat :=
  m.toList.length

/-- Whether there is no name. -/
def isEmpty (m : Mapping α) : Bool :=
  m.toList.isEmpty

/-- The value of a name. -/
def get? (m : Mapping α) (k : String) : Option α :=
  m.toList.lookup k

/-- Whether a name is there. -/
def contains (m : Mapping α) (k : String) : Bool :=
  (m.get? k).isSome

/-- The mapping with `v` at the name `k`. -/
def insert (m : Mapping α) (k : String) (v : α) : Mapping α where
  toList := insertPair k v m.toList
  nodup := by
    rw [map_fst_insertPair]
    split
    · exact m.nodup
    · next h => exact List.nodup_append.2 ⟨m.nodup, by simp, by
        intro a ha b hb
        rw [List.mem_singleton] at hb
        exact fun e => h (hb ▸ e ▸ ha)⟩

/-- The mapping of pairs; of equal names the last value counts, at the first place. -/
def ofList (ps : List (String × α)) : Mapping α :=
  ps.foldl (fun m p => m.insert p.1 p.2) empty

/-- The mapping with `f` applied to every value. -/
def map (f : α → β) (m : Mapping α) : Mapping β where
  toList := m.toList.map fun p => (p.1, f p.2)
  nodup := by simpa [List.map_map, Function.comp_def] using m.nodup

@[simp] theorem toList_empty : (empty : Mapping α).toList = [] := rfl

@[simp] theorem toList_insert (m : Mapping α) (k : String) (v : α) :
    (m.insert k v).toList = insertPair k v m.toList := rfl

@[simp] theorem toList_map (f : α → β) (m : Mapping α) :
    (m.map f).toList = m.toList.map fun p => (p.1, f p.2) := rfl

@[simp] theorem keys_map (f : α → β) (m : Mapping α) : (m.map f).keys = m.keys := by
  simp [keys, List.map_map, Function.comp_def]

/-- A write is read back at its name, and nowhere else. -/
theorem get?_insert (m : Mapping α) (k j : String) (v : α) :
    (m.insert k v).get? j = if j = k then some v else m.get? j :=
  lookup_insertPair k j v m.toList

/-- A write to a name that is there keeps the order. -/
theorem keys_insert_of_mem {m : Mapping α} {k : String} (h : k ∈ m.keys) (v : α) :
    (m.insert k v).keys = m.keys := by
  simp only [keys, toList_insert, map_fst_insertPair]
  exact if_pos h

/-- A new name goes to the end. -/
theorem keys_insert_of_not_mem {m : Mapping α} {k : String} (h : k ∉ m.keys) (v : α) :
    (m.insert k v).keys = m.keys ++ [k] := by
  simp only [keys, toList_insert, map_fst_insertPair]
  exact if_neg h

theorem insertPair_of_not_mem {k : String} {ps : List (String × α)}
    (h : k ∉ ps.map Prod.fst) (v : α) : insertPair k v ps = ps ++ [(k, v)] := by
  induction ps with
  | nil => rfl
  | cons p r ih =>
    rw [List.map_cons, List.mem_cons, not_or] at h
    have hp : p.1 ≠ k := fun e => h.1 e.symm
    simp [insertPair, hp, ih h.2]

theorem toList_foldl_insert (ps : List (String × α)) (m : Mapping α)
    (h : ((m.toList ++ ps).map Prod.fst).Nodup) :
    (ps.foldl (fun m p => m.insert p.1 p.2) m).toList = m.toList ++ ps := by
  induction ps generalizing m with
  | nil => simp
  | cons p r ih =>
    have hp : p.1 ∉ m.toList.map Prod.fst := by
      rw [List.map_append, List.nodup_append] at h
      intro hm
      exact h.2.2 p.1 hm p.1 (by simp) rfl
    have ht : (m.insert p.1 p.2).toList = m.toList ++ [p] := insertPair_of_not_mem hp p.2
    rw [List.foldl_cons, ih _ (by rw [ht]; simpa using h), ht]
    simp

/-- Pairs with distinct names are kept as they are. -/
theorem toList_ofList {ps : List (String × α)} (h : (ps.map Prod.fst).Nodup) :
    (ofList ps).toList = ps := by
  simpa [ofList] using toList_foldl_insert ps empty (by simpa using h)

end Mapping

end Storyline
