import Storyline.Mapping

/-!
# Names of a mapping

Looking up a name, the list of names and the list of pairs tell the same.

## Main results

* `contains_iff_mem_keys`: a name is there exactly when it is among the names
* `get?_eq_some_iff`: a value stands at a name exactly when the pair is there
* `get?_map`: looking up after changing all values
* `keys_insert_eraseDups`: the names after a write, as names without repeats
-/

namespace Storyline.Mapping

variable {α β : Type}

theorem mem_of_lookup {k : String} {v : α} {ps : List (String × α)}
    (h : ps.lookup k = some v) : (k, v) ∈ ps := by
  induction ps with
  | nil => cases h
  | cons p ps ih =>
    obtain ⟨j, w⟩ := p
    rw [List.lookup_cons] at h
    by_cases hk : k = j
    · subst hk
      rw [beq_self_eq_true] at h
      cases h
      exact List.mem_cons_self
    · rw [beq_false_of_ne hk] at h
      exact List.mem_cons_of_mem _ (ih h)

theorem lookup_of_mem {k : String} {v : α} {ps : List (String × α)}
    (hn : (ps.map Prod.fst).Nodup) (h : (k, v) ∈ ps) : ps.lookup k = some v := by
  induction ps with
  | nil => cases h
  | cons p ps ih =>
    rw [List.map_cons, List.nodup_cons] at hn
    rw [List.lookup_cons]
    rcases List.mem_cons.1 h with rfl | h
    · rw [beq_self_eq_true]
    · have hne : k ≠ p.1 := fun e => hn.1 (e ▸ List.mem_map_of_mem (f := Prod.fst) h)
      rw [beq_false_of_ne hne]
      exact ih hn.2 h

/-- A value stands at a name exactly when the pair of them is there. -/
theorem get?_eq_some_iff {m : Mapping α} {k : String} {v : α} :
    m.get? k = some v ↔ (k, v) ∈ m.toList :=
  ⟨mem_of_lookup, lookup_of_mem m.nodup⟩

theorem get?_foldl_insert {ps : List (String × α)} {m : Mapping α} {k : String} {v : α}
    (h : (ps.foldl (fun m p => m.insert p.1 p.2) m).get? k = some v) :
    (k, v) ∈ ps ∨ m.get? k = some v := by
  induction ps generalizing m with
  | nil => exact .inr h
  | cons p ps ih =>
    rcases ih h with h | h
    · exact .inl (List.mem_cons_of_mem p h)
    · rw [get?_insert] at h
      split at h
      · next hk =>
        cases h
        exact .inl (hk ▸ List.mem_cons_self)
      · exact .inr h

/-- A value found in a mapping of pairs is in one of them. -/
theorem mem_of_get?_ofList {ps : List (String × α)} {k : String} {v : α}
    (h : (ofList ps).get? k = some v) : (k, v) ∈ ps :=
  (get?_foldl_insert h).resolve_right (by simp [get?])

theorem mem_values_of_get? {m : Mapping α} {k : String} {v : α} (h : m.get? k = some v) :
    v ∈ m.values :=
  List.mem_map.2 ⟨(k, v), get?_eq_some_iff.1 h, rfl⟩

/-- A name is there exactly when it is among the names. -/
theorem contains_iff_mem_keys {m : Mapping α} {k : String} :
    m.contains k = true ↔ k ∈ m.keys := by
  unfold contains
  rw [Option.isSome_iff_exists, keys, List.mem_map]
  constructor
  · rintro ⟨v, hv⟩
    exact ⟨(k, v), get?_eq_some_iff.1 hv, rfl⟩
  · rintro ⟨⟨j, v⟩, hp, rfl⟩
    exact ⟨v, get?_eq_some_iff.2 hp⟩

/-- A name that is there has a value. -/
theorem exists_get?_of_mem_keys {m : Mapping α} {k : String} (h : k ∈ m.keys) :
    ∃ v, m.get? k = some v :=
  Option.isSome_iff_exists.1 (contains_iff_mem_keys.2 h)

/-- Looking up after changing all values changes the value that is found. -/
theorem get?_map (f : α → β) (m : Mapping α) (k : String) :
    (m.map f).get? k = (m.get? k).map f := by
  unfold get?
  rw [toList_map]
  induction m.toList with
  | nil => rfl
  | cons p ps ih =>
    rw [List.map_cons, List.lookup_cons, List.lookup_cons, ih]
    cases k == p.1 <;> rfl

/-! ## Names without repeats -/

/-- One more name among names without repeats goes to the end, unless it is there. -/
theorem eraseDups_concat (names : List String) (k : String) :
    (names ++ [k]).eraseDups =
      if k ∈ names then names.eraseDups else names.eraseDups ++ [k] := by
  rw [List.eraseDups_append]
  split
  · next hk => simp [List.removeAll, hk]
  · next hk => simp [List.removeAll, hk, List.eraseDups_cons]

/-- The names after a write are those that were written so far, in the order in which they came
in. -/
theorem keys_insert_eraseDups {m : Mapping α} {names : List String} (h : m.keys = names.eraseDups)
    (k : String) (v : α) : (m.insert k v).keys = (names ++ [k]).eraseDups := by
  rw [eraseDups_concat, ← h]
  split
  · next hk => exact keys_insert_of_mem (by rwa [h, List.mem_eraseDups]) v
  · next hk => exact keys_insert_of_not_mem (by rwa [h, List.mem_eraseDups]) v

end Storyline.Mapping
