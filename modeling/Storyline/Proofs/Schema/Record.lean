import Storyline.Schema.Document

/-!
# Records read back

A record is written as the fields that hold something, and each field is found again under its name.
Reading takes writing back for a record, a list or a mapping as soon as it does so for their parts.

## Main definitions

* `TakesBack`: reading gives what was written
* `entriesOf`: the entries of a written record

## Main results

* `find?_entriesOf`: a field of a written record is found under its name
* `required_eq`, `withDefault_eq`, `possible_eq`: what is read of such a field
* `Checked.map_eq_ok`, `Checked.seq_eq_ok`: fields in a row
* `Checked.exists_of_map_eq_ok`, `Checked.exists_of_seq_eq_ok`: and what such a row tells
* `TakesBack.list`, `TakesBack.mapping`: lists and mappings of parts
-/

namespace Storyline.Schema

/-- Whether reading gives what was written. -/
def TakesBack {α : Type} (read : Value → Checked α) (write : α → Value) : Prop :=
  ∀ a, read (write a) = .ok a

namespace Checked

variable {α β : Type}

/-- The first part of a combination is read. -/
theorem map_eq_ok {f : α → β} {x : Checked α} {a : α} (h : x = .ok a) : f <$> x = .ok (f a) := by
  rw [h]
  rfl

/-- One more part of a combination is read. -/
theorem seq_eq_ok {f : Checked (α → β)} {g : α → β} {x : Checked α} {a : α} (hf : f = .ok g)
    (hx : x = .ok a) : f <*> x = .ok (g a) := by
  rw [hf, hx]
  rfl

/-- If something is made of a part, the part is read. -/
theorem exists_of_map_eq_ok {f : α → β} {x : Checked α} {b : β} (h : f <$> x = .ok b) :
    ∃ a, x = .ok a ∧ f a = b := by
  cases x with
  | ok a => exact ⟨a, rfl, ok.inj h⟩
  | bad ps => cases h

/-- If a combination is read, both its parts are. -/
theorem exists_of_seq_eq_ok {f : Checked (α → β)} {x : Checked α} {b : β} (h : f <*> x = .ok b) :
    ∃ g a, f = .ok g ∧ x = .ok a ∧ g a = b := by
  cases f with
  | ok g =>
    cases x with
    | ok a => exact ⟨g, a, rfl, rfl, ok.inj h⟩
    | bad ps => cases h
  | bad ps => cases x <;> cases h

theorem eq_ok_of_under {step : String} {x : Checked α} {a : α} (h : x.under step = .ok a) :
    x = .ok a := by
  cases x with
  | ok b => exact h
  | bad ps => cases h

end Checked

/-! ## Fields -/

/-- The entries of a written record: the fields that hold something. -/
def entriesOf (fields : List (String × Option Value)) : Fields :=
  (fields.filterMap fun p => p.2.map fun v => (p.1, v)).map fun p => (.str p.1, p.2)

theorem writeFields_eq (fields : List (String × Option Value)) :
    writeFields fields = .map (entriesOf fields) := rfl

/-- A record without optional fields. -/
theorem record_eq_writeFields (fields : List (String × Value)) :
    Value.record fields = writeFields (fields.map fun p => (p.1, some p.2)) := by
  rw [writeFields, List.filterMap_map]
  exact congrArg Value.record List.filterMap_some.symm

/-- What is found after one more field. -/
theorem find?_entriesOf_cons (key : String) (value : Option Value)
    (fields : List (String × Option Value)) (name : String) :
    Value.find? (entriesOf ((key, value) :: fields)) name =
      if key = name then value.or (Value.find? (entriesOf fields) name)
      else Value.find? (entriesOf fields) name := by
  cases value with
  | none => exact (ite_self _).symm
  | some v =>
    show Value.find? ((.str key, v) :: entriesOf fields) name = _
    unfold Value.find?
    by_cases h : key = name
    · rw [if_pos h, List.find?_cons_of_pos (by simpa using h)]
      rfl
    · rw [if_neg h, List.find?_cons_of_neg (by simpa using h)]

theorem find?_entriesOf_of_not_mem {fields : List (String × Option Value)} {name : String}
    (h : name ∉ fields.map Prod.fst) : Value.find? (entriesOf fields) name = none := by
  induction fields with
  | nil => rfl
  | cons p fields ih =>
    rw [List.map_cons, List.mem_cons, not_or] at h
    rw [find?_entriesOf_cons, if_neg (Ne.symm h.1)]
    exact ih h.2

/-- A field of a written record is found under its name if it holds something. -/
theorem find?_entriesOf {fields : List (String × Option Value)}
    (hdistinct : (fields.map Prod.fst).Nodup) {name : String} {value : Option Value}
    (h : (name, value) ∈ fields) : Value.find? (entriesOf fields) name = value := by
  induction fields with
  | nil => cases h
  | cons p fields ih =>
    obtain ⟨key, other⟩ := p
    obtain ⟨hkey, hrest⟩ := List.nodup_cons.1 hdistinct
    rw [find?_entriesOf_cons]
    rcases List.mem_cons.1 h with he | h
    · -- The field stands here; if it holds nothing, no later field has its name.
      cases he
      rw [if_pos rfl, find?_entriesOf_of_not_mem hkey, Option.or_none]
    · have hne : key ≠ name := by
        rintro rfl
        exact hkey (List.mem_map.2 ⟨(key, value), h, rfl⟩)
      rw [if_neg hne]
      exact ih hrest h

section

variable {α : Type} {read : Value → Checked α} {write : α → Value} {name : String}
  {names : List String} {fs : Fields} {fields : List (String × Option Value)} {a : α}

theorem findField?_of_find? {v : Value} (h : Value.find? fs name = some v) :
    findField? fs (name :: names) = some (name, v) := by
  rw [findField?, h]

theorem findField?_eq_none (h : ∀ name ∈ names, Value.find? fs name = none) :
    findField? fs names = none := by
  induction names with
  | nil => rfl
  | cons name names ih =>
    obtain ⟨hname, hnames⟩ := List.forall_mem_cons.1 h
    rw [findField?, hname]
    exact ih hnames

/-- A field that must be there is read back. -/
theorem required_eq (hread : TakesBack read write) (hdistinct : (fields.map Prod.fst).Nodup)
    (h : (name, some (write a)) ∈ fields) :
    required (name :: names) read (entriesOf fields) = .ok a := by
  rw [required, findField?_of_find? (find?_entriesOf hdistinct h)]
  dsimp only
  rw [hread]
  rfl

/-- A field with a default is read back if it was written. -/
theorem withDefault_eq {default : α} (hread : TakesBack read write)
    (hdistinct : (fields.map Prod.fst).Nodup) (h : (name, some (write a)) ∈ fields) :
    withDefault (name :: names) default read (entriesOf fields) = .ok a := by
  rw [withDefault, findField?_of_find? (find?_entriesOf hdistinct h)]
  dsimp only
  rw [hread]
  rfl

/-- Whether nothing is written as what stands for nothing. -/
def NeverNull (write : α → Value) : Prop :=
  ∀ a, write a ≠ .null

theorem optional_eq (hread : TakesBack read write) (hnull : NeverNull write) (a : α) :
    optional read (write a) = .ok (some a) := by
  have hsome : optional read (write a) = some <$> read (write a) := by
    unfold optional
    split
    · next h => exact absurd h (hnull a)
    · rfl
  rw [hsome, hread]
  rfl

/-- A field that may be missing is read back, also if it is missing under all of its names. -/
theorem withDefault_optional_eq {o : Option α} (hread : TakesBack read write)
    (hnull : NeverNull write) (hdistinct : (fields.map Prod.fst).Nodup)
    (h : (name, o.map write) ∈ fields) (hnames : ∀ other ∈ names, other ∉ fields.map Prod.fst) :
    withDefault (name :: names) none (optional read) (entriesOf fields) = .ok o := by
  have hfind := find?_entriesOf hdistinct h
  cases o with
  | none =>
    -- None of the other names is written at all.
    have hnone := fun other hother => find?_entriesOf_of_not_mem (hnames other hother)
    rw [withDefault, findField?_eq_none (List.forall_mem_cons.2 ⟨hfind, hnone⟩)]
  | some a =>
    rw [withDefault, findField?_of_find? hfind]
    dsimp only
    rw [optional_eq hread hnull]
    rfl

theorem possible_eq {o : Option α} (hread : TakesBack read write) (hnull : NeverNull write)
    (hdistinct : (fields.map Prod.fst).Nodup) (h : (name, o.map write) ∈ fields) :
    possible name read (entriesOf fields) = .ok o :=
  withDefault_optional_eq hread hnull hdistinct h (List.forall_mem_nil _)

/-! ## Lists and mappings -/

theorem TakesBack.items (hread : TakesBack read write) (place : Nat) (as : List α) :
    readItems read place (as.map write) = .ok as := by
  induction as generalizing place with
  | nil => rfl
  | cons a as ih =>
    rw [List.map_cons, readItems, hread, ih]
    rfl

theorem TakesBack.list (hread : TakesBack read write) :
    TakesBack (readList read) fun as => .list (as.map write) :=
  hread.items 0

theorem TakesBack.entries (hread : TakesBack read write) (ps : List (String × α)) :
    readEntries read ((ps.map fun p => (p.1, write p.2)).map fun p => (.str p.1, p.2)) =
      .ok ps := by
  induction ps with
  | nil => rfl
  | cons p ps ih =>
    rw [List.map_cons, List.map_cons, readEntries, ih, hread]
    rfl

/-- A mapping is read back, with the order of its names. -/
theorem TakesBack.mapping (hread : TakesBack read write) :
    TakesBack (readMapping read) (Value.ofMapping write) := by
  intro m
  have hlist : Mapping.ofList m.toList = m := Mapping.ext_toList (Mapping.toList_ofList m.nodup)
  rw [Value.ofMapping, Value.record, readMapping, hread.entries]
  show Checked.ok (Mapping.ofList m.toList) = .ok m
  rw [hlist]

end

end Storyline.Schema
