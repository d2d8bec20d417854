import Storyline.Proofs.Yaml.Load

/-!
# What can be written, and how deep it is

Data can be written exactly when its integers are short enough, and the text of a collection is
longer than the texts of what is in it, so that the length of the text bounds the depth of the data.

## Main results

* `exists_valueText_iff`: what can be written
* `toValue_of_valueText`: the value of the tree of written data
-/

namespace Storyline.Yaml

/-! ## What can be written -/

theorem countable_int {n : Int} : Countable (.int n) ↔ IntFits n :=
  ⟨fun h => h n (List.mem_singleton_self _), fun h k hk => by
    cases List.mem_singleton.1 hk
    exact h⟩

theorem countable_list {vs : List Value} : Countable (.list vs) ↔ ∀ v ∈ vs, Countable v :=
  ⟨fun h _ hv => countable_of_mem_list h hv, fun h n hn => by
    obtain ⟨v, hv, hn⟩ := mem_scalarsOfItems.1 hn
    exact h v hv n hn⟩

theorem countable_map {es : List (Value × Value)} (hkeys : ∀ e ∈ es, ∃ k, e.1 = .str k) :
    Countable (.map es) ↔ ∀ e ∈ es, Countable e.2 :=
  ⟨fun h _ he => (countable_of_mem_map h he).2, fun h n hn => by
    obtain ⟨e, he, hn | hn⟩ := mem_scalarsOfEntries.1 hn
    · obtain ⟨k, hk⟩ := hkeys e he
      rw [hk] at hn
      cases List.mem_singleton.1 hn
    · exact h e he n hn⟩

/-- Of scalars only integers may be too long to be written. -/
theorem exists_scalarForm_iff {v : Value} (hv : Data v) (hscalar : isScalar v = true)
    (place : Place) (indent : Nat) :
    (∃ text, scalarForm place indent v = .ok text) ↔ Countable v := by
  have hother (htext : ∃ text, scalarForm place indent v = .ok text)
      (hmem : ∀ n, .int n ∉ scalars v) :
      (∃ text, scalarForm place indent v = .ok text) ↔ Countable v :=
    iff_of_true htext fun n hn => absurd hn (hmem n)
  cases hv with
  | int n =>
    rw [countable_int, IntFits, scalarForm, Number.writeInt]
    split
    · next h =>
      constructor
      · rintro ⟨text, htext⟩
        cases htext
      · exact fun hle => absurd hle (Nat.not_le.2 h)
    · next h => exact ⟨fun _ => Nat.not_lt.1 h, fun _ => ⟨_, rfl⟩⟩
  | list => cases hscalar
  | map => cases hscalar
  | bool b => exact hother ⟨_, rfl⟩ (by simp [scalars])
  | float x => exact hother ⟨_, rfl⟩ (by simp [scalars])
  | str s => exact hother ⟨_, rfl⟩ (by simp [scalars])

/-- A row of lines after which nothing can fail. -/
theorem exists_lines_iff {α : Type} {f : α → Except NumberFault (List Char)} {xs : List α}
    {p : α → Prop} (h : ∀ x ∈ xs, (∃ l, f x = .ok l) ↔ p x) :
    (∃ ls, xs.mapM f = .ok ls) ↔ ∀ x ∈ xs, p x := by
  rw [Except.exists_mapM_iff]
  exact forall₂_congr h

theorem exists_entryLine_iff {k : String} {v : Value} {indent : Nat}
    (h : ∀ fresh, (∃ text, valueText indent fresh v = .ok text) ↔ Countable v) :
    (∃ l, entryLine indent (.str k, v) = .ok l) ↔ Countable v := by
  refine Iff.trans ?_ (h (isSimpleName k))
  show (∃ l, (valueText indent (isSimpleName k) v >>= fun value => _) = Except.ok l) ↔ _
  exact Except.exists_bind_iff fun value => ⟨_, rfl⟩

theorem exists_valueText_iff_of_isScalar {v : Value} (hv : Data v) (hscalar : isScalar v = true)
    {indent : Nat} {fresh : Bool} :
    (∃ text, valueText indent fresh v = .ok text) ↔ Countable v := by
  rw [valueText_of_isScalar hscalar, ← exists_scalarForm_iff hv hscalar .value (indent + 2)]
  exact Except.exists_bind_iff fun text => ⟨_, rfl⟩

/-- **Data can be written exactly when its integers are short enough.** -/
theorem exists_valueText_iff {v : Value} (hv : Data v) {indent : Nat} {fresh : Bool} :
    (∃ text, valueText indent fresh v = .ok text) ↔ Countable v := by
  induction hv generalizing indent fresh with
  | bool b => exact exists_valueText_iff_of_isScalar (.bool b) rfl
  | int n => exact exists_valueText_iff_of_isScalar (.int n) rfl
  | float x => exact exists_valueText_iff_of_isScalar (.float x) rfl
  | str s => exact exists_valueText_iff_of_isScalar (.str s) rfl
  | @list items hitems ih =>
    rw [valueText, countable_list]
    split
    · next hempty =>
      rw [List.isEmpty_iff.1 hempty]
      exact ⟨fun _ => List.forall_mem_nil _, fun _ => ⟨_, rfl⟩⟩
    · rw [← exists_lines_iff (f := itemLine (indent + 2)) fun v hv => ?_, itemTexts_eq_mapM]
      · exact Except.exists_bind_iff fun ls => ⟨_, rfl⟩
      · exact (Except.exists_bind_iff fun text => ⟨_, rfl⟩).trans (ih v hv)
  | @map entries hkeys hentries ih =>
    rw [valueText, countable_map hkeys]
    split
    · next hempty =>
      rw [List.isEmpty_iff.1 hempty]
      exact ⟨fun _ => List.forall_mem_nil _, fun _ => ⟨_, rfl⟩⟩
    · rw [← exists_lines_iff (f := entryLine (indent + 2)) fun e he => ?_, entryTexts_eq_mapM]
      · exact Except.exists_bind_iff fun ls => ⟨_, rfl⟩
      · obtain ⟨k, hk⟩ := hkeys e he
        obtain ⟨j, v⟩ := e
        obtain rfl : j = .str k := hk
        exact exists_entryLine_iff fun fresh => ih (.str k, v) he

/-! ## Depth -/

theorem length_le_joinLines {indent : Nat} {ls : List (List Char)} {l : List Char} (hl : l ∈ ls) :
    l.length ≤ (joinLines indent ls).length := by
  rw [joinLines]
  induction ls with
  | nil => cases hl
  | cons k ls ih =>
    cases ls with
    | nil =>
      cases List.mem_singleton.1 hl
      rw [List.intercalate_singleton]
    | cons k' ls =>
      rw [List.intercalate_cons_cons, List.length_append, List.length_append]
      rcases List.mem_cons.1 hl with rfl | hl
      · omega
      · have := ih hl
        omega

theorem exists_of_entryLine {k : String} {v : Value} {indent : Nat} {l : List Char}
    (h : entryLine indent (.str k, v) = .ok l) :
    ∃ fresh text, valueText indent fresh v = .ok text ∧ text.length < l.length := by
  obtain ⟨simple, -, h⟩ := Except.bind_eq_ok_iff.1 h
  obtain ⟨key, -, h⟩ := Except.bind_eq_ok_iff.1 h
  obtain ⟨text, htext, h⟩ := Except.bind_eq_ok_iff.1 h
  cases h
  refine ⟨simple, text, htext, ?_⟩
  split <;> simp only [List.length_append, List.length_cons] <;> omega

theorem length_gap (indent : Nat) (fresh : Bool) : 1 ≤ (gap indent fresh).length := by
  cases fresh
  · exact le_rfl
  · exact Nat.succ_le_succ (Nat.zero_le _)

/-- The text of a list is longer than the texts of its items. -/
theorem exists_depth_items {indent : Nat} {fresh : Bool} {vs : List Value}
    {ls : List (List Char)} (hls : vs.mapM (itemLine indent) = .ok ls) {depth : Nat}
    (hdepth : (gap indent fresh ++ joinLines indent ls).length ≤ depth) :
    ∃ d, depth = d + 1 ∧ ∀ v ∈ vs, ∃ text, valueText indent false v = .ok text ∧
      text.length ≤ d := by
  have hgap := length_gap indent fresh
  rw [List.length_append] at hdepth
  refine ⟨depth - 1, by omega, fun v hv => ?_⟩
  obtain ⟨l, hl, hline⟩ := Except.exists_mem_of_mapM hls hv
  obtain ⟨text, htext, hline⟩ := Except.bind_eq_ok_iff.1 hline
  cases hline
  have hlength := @length_le_joinLines indent _ _ hl
  rw [List.length_cons] at hlength
  exact ⟨text, htext, by omega⟩

/-- The text of a mapping is longer than the texts of its values by a key and its colon. -/
theorem exists_depth_entries {indent : Nat} {fresh : Bool} {es : List (Value × Value)}
    (hne : es ≠ []) (hkeys : ∀ e ∈ es, ∃ k, e.1 = .str k) {ls : List (List Char)}
    (hls : es.mapM (entryLine indent) = .ok ls) {depth : Nat}
    (hdepth : (gap indent fresh ++ joinLines indent ls).length ≤ depth) :
    ∃ d, depth = d + 2 ∧ ∀ e ∈ es, ∃ fresh text, valueText indent fresh e.2 = .ok text ∧
      text.length ≤ d + 1 := by
  have hgap := length_gap indent fresh
  rw [List.length_append] at hdepth
  have hline : ∀ e ∈ es, ∃ fresh text, valueText indent fresh e.2 = .ok text ∧
      text.length < (joinLines indent ls).length := by
    rintro ⟨j, v⟩ he
    obtain ⟨k, rfl⟩ := hkeys _ he
    obtain ⟨l, hl, hline⟩ := Except.exists_mem_of_mapM hls he
    obtain ⟨fresh, text, htext, hlength⟩ := exists_of_entryLine hline
    exact ⟨fresh, text, htext, hlength.trans_le (length_le_joinLines hl)⟩
  -- One entry is enough to see that the depth is at least two.
  obtain ⟨e, he⟩ := List.exists_mem_of_ne_nil es hne
  obtain ⟨-, text, -, hlength⟩ := hline e he
  refine ⟨depth - 2, by omega, fun e he => ?_⟩
  obtain ⟨fresh, text, htext, hlength⟩ := hline e he
  exact ⟨fresh, text, htext, by omega⟩

/-- A tree has its value at any depth that is not less than the length of the text. -/
def HasValue (v : Value) (text : List Char) : Prop :=
  ∀ {names : Names} {n : Node} {depth : Nat}, Spells v n → Countable v → text.length ≤ depth →
    n.toValue names depth = .ok (reread v)

theorem hasValue_scalar {v : Value} (hv : isScalar v = true) (form : List Char) :
    HasValue v (' ' :: form) := by
  intro names n depth hn hcount hdepth
  have htag : n.tag.isCollection = false := by
    cases hn <;> first | rfl | cases hv
  obtain ⟨depth, rfl⟩ := Nat.exists_eq_add_of_le' (show 1 ≤ depth by simp at hdepth; omega)
  exact toValue_scalar names hn hcount htag depth

/-- The tree of a list has its value if the trees of the items have theirs. -/
theorem hasValue_items {indent : Nat} {fresh : Bool} {vs : List Value} {ls : List (List Char)}
    (hls : vs.mapM (itemLine indent) = .ok ls)
    (ih : ∀ v ∈ vs, ∀ {text : List Char}, valueText indent false v = .ok text → HasValue v text) :
    HasValue (.list vs) (gap indent fresh ++ joinLines indent ls) := by
  intro names n depth hn hcount hdepth
  obtain ⟨ns, line, rfl, hns⟩ := forall₂_of_spells_list hn
  obtain ⟨d, rfl, hsmall⟩ := exists_depth_items hls hdepth
  have hcounts := countable_list.1 hcount
  refine toValue_list names ?_ line
  rw [List.forall₂_iff_zip] at hns ⊢
  refine ⟨hns.1, fun {v m} hp => ?_⟩
  have hmem := (List.of_mem_zip hp).1
  obtain ⟨text, htext, hle⟩ := hsmall v hmem
  exact ih v hmem htext (hns.2 hp) (hcounts v hmem) hle

/-- The tree of a mapping has its value if the trees of the values have theirs. -/
theorem hasValue_entries {indent : Nat} {fresh : Bool} {es : List (Value × Value)} (hne : es ≠ [])
    (hkeys : ∀ e ∈ es, ∃ k, e.1 = .str k) {ls : List (List Char)}
    (hls : es.mapM (entryLine indent) = .ok ls)
    (ih : ∀ e ∈ es, ∀ {fresh : Bool} {text : List Char},
      valueText indent fresh e.2 = .ok text → HasValue e.2 text) :
    HasValue (.map es) (gap indent fresh ++ joinLines indent ls) := by
  intro names n depth hn hcount hdepth
  obtain ⟨ns, line, rfl, hns⟩ := forall₂_of_spells_map hn
  obtain ⟨d, rfl, hsmall⟩ := exists_depth_entries hne hkeys hls hdepth
  have hcounts := (countable_map hkeys).1 hcount
  refine toValue_map names hkeys hns ?_ line
  rw [List.forall₂_iff_zip] at hns ⊢
  refine ⟨hns.1, fun {e m} hp => ?_⟩
  have hmem := (List.of_mem_zip hp).1
  obtain ⟨fresh, text, htext, hle⟩ := hsmall e hmem
  exact ih e hmem htext (hns.2 hp).2 (hcounts e hmem) hle

theorem hasValue_noItems : HasValue (.list []) [' ', '[', ']'] := by
  intro names n depth hn _ hdepth
  obtain ⟨ns, line, rfl, hns⟩ := forall₂_of_spells_list hn
  obtain ⟨depth, rfl⟩ := Nat.exists_eq_add_of_le' (le_trans (show 1 ≤ 3 by decide) hdepth)
  cases hns
  exact toValue_list names .nil line

theorem hasValue_noEntries : HasValue (.map []) [' ', '{', '}'] := by
  intro names n depth hn _ hdepth
  obtain ⟨ns, line, rfl, hns⟩ := forall₂_of_spells_map hn
  obtain ⟨depth, rfl⟩ := Nat.exists_eq_add_of_le' (le_trans (show 2 ≤ 3 by decide) hdepth)
  cases hns
  exact toValue_map names (List.forall_mem_nil _) .nil .nil line

/-- **The tree of written data has the data as its value**, read back, at a depth of the length of
the text. -/
theorem toValue_of_valueText {v : Value} (hv : Data v) {indent : Nat} {fresh : Bool}
    {text : List Char} (h : valueText indent fresh v = .ok text) {names : Names} {n : Node}
    (hn : Spells v n) {depth : Nat} (hdepth : text.length ≤ depth) :
    n.toValue names depth = .ok (reread v) :=
  hv.valueText_induction (P := fun v _ _ text => HasValue v text)
    (fun hscalar _ => hasValue_scalar hscalar _) hasValue_noItems hasValue_noEntries
    (fun _ hls ih => hasValue_items hls ih)
    (fun hne hkeys hls ih => hasValue_entries hne hkeys hls ih) h hn
    ((exists_valueText_iff hv).1 ⟨text, h⟩) hdepth

end Storyline.Yaml
