import Storyline.Proofs.Yaml.Reading

/-!
# Data that last

Data that are written and read back are the same data again exactly if nothing in them is lost: no
integer is too long to be written, every key fits on the line of its colon, and every string
survives between its quotes.

## Main definitions

* `Distinct`: data in which no mapping has a key twice
* `Lasting`: entries that are written and read back as themselves

## Main results

* `reread_eq_self_iff`: reading data back changes nothing exactly if every string survives
* `exists_load_of_lasting`: what lasts is written and read back
* `fits_of_load`: what is read back at all had keys that fit
-/

namespace Storyline.Yaml

/-- Data with at most `d` collections within each other, in which no mapping has a key twice. -/
inductive Distinct : Nat → Value → Prop where
  | scalar {d : Nat} {v : Value} (h : isScalar v = true) : Distinct d v
  | list {d : Nat} {items : List Value} (h : ∀ v ∈ items, Distinct d v) :
    Distinct (d + 1) (.list items)
  | map {d : Nat} {entries : List (Value × Value)} (hkeys : ∀ e ∈ entries, ∃ k, e.1 = .str k)
    (hnodup : (entries.map Prod.fst).Nodup) (h : ∀ e ∈ entries, Distinct d e.2) :
    Distinct (d + 1) (.map entries)

/-- Entries in which nothing is lost when they are written and read back. -/
structure Lasting (entries : List (Value × Value)) : Prop where
  countable : Countable (.map entries)
  fits : ∀ k ∈ names (.map entries), Fits k
  survives : ∀ s, .str s ∈ scalars (.map entries) → Survives s

variable {inline : List String} {entries : List (Value × Value)} {text : List Char} {d : Nat}

theorem Distinct.depth_le {v : Value} (h : Distinct d v) : v.depth ≤ d := by
  induction h with
  | @scalar d v hv =>
    cases v with
    | list => cases hv
    | map => cases hv
    | set => cases hv
    | pair => cases hv
    | _ => exact Nat.zero_le d
  | list _ ih => exact Value.depth_list_le_iff.2 ih
  | map hkeys _ _ ih =>
    refine Value.depth_map_le_iff.2 fun e he => ⟨?_, ih e he⟩
    obtain ⟨k, hk⟩ := hkeys e he
    rw [hk]
    exact Nat.zero_le _

/-- Whether nothing of a scalar is lost when it is written and read back. -/
def ScalarLasts : Value → Prop
  | .int n => IntFits n
  | .str s => Survives s
  | _ => True

instance (s : String) : Decidable (Survives s) :=
  inferInstanceAs (Decidable (styleOf .value s.toList = .single → '\u0085' ∉ s.toList))

instance : (v : Value) → Decidable (ScalarLasts v)
  | .int n => inferInstanceAs (Decidable ((Nat.toDigits 10 n.natAbs).length ≤ digitLimit))
  | .str s => inferInstanceAs (Decidable (Survives s))
  | .null | .bool _ | .float _ | .date _ | .moment _ | .bytes _ | .set _ | .pair .. | .list _
  | .map _ => .isTrue trivial

instance (s : String) : Decidable (Fits s) :=
  inferInstanceAs (Decidable (isSimpleName s = true → _ ≤ Scanner.keyLimit))

theorem lasting_iff : Lasting entries ↔
    (∀ k ∈ names (.map entries), Fits k) ∧ ∀ v ∈ scalars (.map entries), ScalarLasts v := by
  constructor
  · rintro ⟨hcountable, hfits, hsurvives⟩
    refine ⟨hfits, fun v hv => ?_⟩
    cases v with
    | int n => exact hcountable n hv
    | str s => exact hsurvives s hv
    | _ => trivial
  · rintro ⟨hfits, hscalars⟩
    exact ⟨fun n hn => hscalars _ hn, hfits, fun s hs => hscalars _ hs⟩

instance : Decidable (Lasting entries) :=
  decidable_of_iff' _ lasting_iff

/-! ## Keys that are there once -/

/-- An entry goes to the end, or it takes the place of another. -/
theorem insertEntry_cases (k v : Value) (es : List (Value × Value)) :
    Value.insertEntry k v es = es ++ [(k, v)] ∨ (Value.insertEntry k v es).length = es.length := by
  induction es with
  | nil => exact .inl rfl
  | cons e es ih =>
    rw [Value.insertEntry]
    split
    · exact .inr rfl
    · exact ih.imp (congrArg (e :: ·)) (congrArg (· + 1))

/-- Entries of which none takes the place of another are kept as they are. -/
theorem collect_of_length {es : List (Value × Value)} (h : (collect es).length = es.length) :
    collect es = es := by
  have key : ∀ es kept : List (Value × Value),
      let all := es.foldl (fun es e => Value.insertEntry e.1 e.2 es) kept
      all.length ≤ kept.length + es.length ∧
        (all.length = kept.length + es.length → all = kept ++ es) := by
    intro es
    induction es with
    | nil => exact fun kept => ⟨le_rfl, fun _ => (List.append_nil kept).symm⟩
    | cons e es ih =>
      intro kept
      obtain ⟨hle, heq⟩ := ih (Value.insertEntry e.1 e.2 kept)
      rw [List.foldl_cons, List.length_cons]
      rcases insertEntry_cases e.1 e.2 kept with h | h
      · rw [h] at hle heq ⊢
        rw [List.length_append, List.length_singleton, Nat.add_assoc, Nat.add_comm 1] at hle heq
        exact ⟨hle, fun hlength => by rw [heq hlength, List.append_assoc]; rfl⟩
      · rw [h] at hle
        exact ⟨by omega, fun hlength => by omega⟩
  exact (key es []).2 (by rw [List.length_nil, Nat.zero_add]; exact h)

/-- A new name goes to the end. -/
theorem insertEntry_str {k : String} {v : Value} {es : List (Value × Value)}
    (hkeys : ∀ e ∈ es, ∃ j, e.1 = .str j) (h : .str k ∉ es.map Prod.fst) :
    Value.insertEntry (.str k) v es = es ++ [(.str k, v)] := by
  induction es with
  | nil => rfl
  | cons e es ih =>
    obtain ⟨⟨j, hj⟩, hkeys⟩ := List.forall_mem_cons.1 hkeys
    rw [List.map_cons, List.mem_cons, not_or] at h
    have hne : e.1.sameKey (.str k) = false := by
      rw [hj] at h ⊢
      exact beq_false_of_ne fun he => h.1 (he ▸ rfl)
    rw [Value.insertEntry, hne, if_neg Bool.false_ne_true, ih hkeys h.2]
    rfl

/-- Entries with distinct names are kept as they are. -/
theorem collect_of_nodup {es : List (Value × Value)} (hkeys : ∀ e ∈ es, ∃ k, e.1 = .str k)
    (hnodup : (es.map Prod.fst).Nodup) : collect es = es := by
  induction es using List.reverseRecOn with
  | nil => rfl
  | append_singleton es e ih =>
    obtain ⟨hfront, hlast⟩ := List.forall_mem_append.1 hkeys
    obtain ⟨k, hk⟩ := hlast e List.mem_cons_self
    rw [List.map_append, List.nodup_append] at hnodup
    obtain ⟨hnodup, -, hnew⟩ := hnodup
    obtain ⟨j, v⟩ := e
    obtain rfl : j = .str k := hk
    have hkept := ih hfront hnodup
    rw [collect] at hkept ⊢
    rw [List.foldl_append, hkept]
    exact insertEntry_str hfront fun hmem => hnew _ hmem (.str k) List.mem_cons_self rfl

/-! ## Strings that survive -/

theorem reread_eq_self_of_isScalar {v : Value} (h : isScalar v = true) :
    reread v = v ↔ ∀ s, .str s ∈ scalars v → Survives s := by
  cases v with
  | str s =>
    rw [reread, Value.str.injEq, rereadString_eq_self_iff]
    refine ⟨fun hs t ht => ?_, fun hs => hs s (List.mem_singleton_self _)⟩
    cases List.mem_singleton.1 ht
    exact hs
  | list => cases h
  | map => cases h
  | _ => exact iff_of_true rfl fun s hs => by cases List.mem_singleton.1 hs

theorem map_eq_self_iff {α : Type} {f : α → α} {xs : List α} :
    xs.map f = xs ↔ ∀ x ∈ xs, f x = x := by
  simpa using List.map_inj_left (l := xs) (f := f) (g := id)

/-- What is read back of entries is the same if and only if each of them is, since of two keys that
became the same one would be left out. -/
theorem collect_reread_eq_self_iff {es : List (Value × Value)}
    (hkeys : ∀ e ∈ es, ∃ k, e.1 = .str k) (hnodup : (es.map Prod.fst).Nodup) :
    collect (rereadEntries es) = es ↔ ∀ e ∈ es, reread e.1 = e.1 ∧ reread e.2 = e.2 := by
  have hpairs : (∀ e ∈ es, reread e.1 = e.1 ∧ reread e.2 = e.2) ↔ rereadEntries es = es := by
    rw [rereadEntries_eq_map, map_eq_self_iff]
    exact forall₂_congr fun e _ => by rw [Prod.ext_iff]
  rw [hpairs]
  constructor
  · intro h
    have hlength : (collect (rereadEntries es)).length = (rereadEntries es).length := by
      rw [h, rereadEntries_eq_map, List.length_map]
    rwa [collect_of_length hlength] at h
  · intro h
    rw [h, collect_of_nodup hkeys hnodup]

/-- **Reading data back changes nothing exactly if every string survives.** -/
theorem reread_eq_self_iff {v : Value} (h : Distinct d v) :
    reread v = v ↔ ∀ s, .str s ∈ scalars v → Survives s := by
  induction h with
  | scalar hv => exact reread_eq_self_of_isScalar hv
  | @list d items _ ih =>
    rw [reread, rereadItems_eq_map, Value.list.injEq, map_eq_self_iff, scalars]
    simp only [mem_scalarsOfItems]
    refine (forall₂_congr ih).trans ⟨?_, fun h v hv s hs => h s ⟨v, hv, hs⟩⟩
    rintro h s ⟨v, hv, hs⟩
    exact h v hv s hs
  | @map d entries hkeys hnodup _ ih =>
    have hkey : ∀ e ∈ entries, (reread e.1 = e.1 ↔ ∀ s, .str s ∈ scalars e.1 → Survives s) := by
      intro e he
      obtain ⟨k, hk⟩ := hkeys e he
      exact reread_eq_self_of_isScalar (by rw [hk]; rfl)
    rw [reread, Value.map.injEq, collect_reread_eq_self_iff hkeys hnodup, scalars]
    simp only [mem_scalarsOfEntries]
    refine (forall₂_congr fun e he => and_congr (hkey e he) (ih e he)).trans ⟨?_, ?_⟩
    · rintro h s ⟨e, he, hs | hs⟩
      · exact (h e he).1 s hs
      · exact (h e he).2 s hs
    · exact fun h e he => ⟨fun s hs => h s ⟨e, he, .inl hs⟩, fun s hs => h s ⟨e, he, .inr hs⟩⟩

/-! ## Mappings that last -/

/-- Entries that last are written and read back as themselves. -/
theorem exists_load_of_lasting (hne : entries ≠ []) (hdata : TopData inline entries)
    (hdistinct : Distinct d (.map entries)) (h : Lasting entries) :
    ∃ text, renderBody inline entries = .ok text ∧ load text = .ok (.map entries) := by
  obtain ⟨text, htext⟩ := (exists_renderBody_iff hdata).2 h.countable
  have hload := load_renderBody hne hdata htext (.inl rfl) (forall_namesOfEntries.1 h.fits)
  rw [List.append_nil, (reread_eq_self_iff hdistinct).2 h.survives] at hload
  exact ⟨text, htext, hload⟩

/-- Entries that are read at all after they were written had keys that fit. -/
theorem fits_of_load (hne : entries ≠ []) (hdata : TopData inline entries)
    (htext : renderBody inline entries = .ok text) {v : Value} (h : load text = .ok v) :
    (∀ k ∈ names (.map entries), Fits k) ∧ v = reread (.map entries) := by
  have hfits : ∀ e ∈ entries, EntryFits e := by
    by_contra hnot
    obtain ⟨f, hf⟩ := exists_error_load hne hdata htext (.inl rfl) hnot
    rw [List.append_nil, h] at hf
    cases hf
  have hload := load_renderBody hne hdata htext (.inl rfl) hfits
  rw [List.append_nil, h] at hload
  exact ⟨forall_namesOfEntries.2 hfits, Except.ok.inj hload⟩

end Storyline.Yaml
