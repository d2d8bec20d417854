import Storyline.Proofs.Text.Lines
import Storyline.Proofs.Yaml.Tokens

/-!
# The lines of written data

Every line of written data is indented by spaces and then names a key or begins with the mark of an
item or a key. So no line of it is blank, closes a fence, or is a rule, whatever the data is.

## Main definitions

* `Begins`, `Row`: a line of written data, without and with its indentation

## Main results

* `starts_of_renderBody`: the lines of a mapping
* `allShown_of_renderBody`: its characters
-/

namespace Storyline.Yaml

open Text

/-! ## Rows -/

/-- Whether a line, without its indentation, names a key or begins with a mark. -/
def Begins (r : List Char) : Prop :=
  ':' ∈ r ∨ ['-', ' '] <+: r ∨ ['?', ' '] <+: r

/-- Whether a line is indented by spaces and then names a key or begins with a mark. -/
def Row (l : List Char) : Prop :=
  ∃ n r, l = List.replicate n ' ' ++ r ∧ Begins r

/-- Whether a text goes on with a line and then has rows. -/
def Continues (text : List Char) : Prop :=
  ∃ r rs, lines text = r :: rs ∧ ∀ l ∈ rs, Row l

/-- Whether a text begins with a row that is not indented and then has rows. -/
def Starts (text : List Char) : Prop :=
  ∃ r rs, lines text = r :: rs ∧ Begins r ∧ ∀ l ∈ rs, Row l

theorem continues_line {l : List Char} (h : '\n' ∉ l) : Continues l :=
  ⟨l, [], lines_eq_singleton h, nofun⟩

theorem Continues.append {l text : List Char} (hl : '\n' ∉ l) (h : Continues text) :
    Continues (l ++ text) := by
  obtain ⟨r, rs, hlines, hrows⟩ := h
  exact ⟨l ++ r, rs, lines_append hl hlines, hrows⟩

/-- What stands in front of a text that goes on. -/
theorem Continues.starts {l text : List Char} (hl : '\n' ∉ l) (hbegins : ∀ r, Begins (l ++ r))
    (h : Continues text) : Starts (l ++ text) := by
  obtain ⟨r, rs, hlines, hrows⟩ := h
  exact ⟨l ++ r, rs, lines_append hl hlines, hbegins r, hrows⟩

theorem Starts.row {text : List Char} (h : Starts text) (n : Nat) :
    ∀ l ∈ lines (List.replicate n ' ' ++ text), Row l := by
  obtain ⟨r, rs, hlines, hbegins, hrows⟩ := h
  have hspaces : '\n' ∉ List.replicate n ' ' := by simp
  rw [lines_append hspaces hlines, List.forall_mem_cons]
  exact ⟨⟨n, r, rfl, hbegins⟩, hrows⟩

theorem Starts.continues {text : List Char} (h : Starts text) : Continues text := by
  obtain ⟨r, rs, hlines, -, hrows⟩ := h
  exact ⟨r, rs, hlines, hrows⟩

/-- A text with another on a new line below it. -/
theorem Continues.newLine {text text' : List Char} (h : Continues text) (h' : Starts text')
    (n : Nat) : Continues (text ++ newLine n ++ text') := by
  obtain ⟨r, rs, hlines, hrows⟩ := h
  refine ⟨r, rs ++ lines (List.replicate n ' ' ++ text'), ?_, ?_⟩
  · rw [Yaml.newLine, List.append_assoc, List.cons_append, lines_append_break, hlines]
    rfl
  · exact List.forall_mem_append.2 ⟨hrows, h'.row n⟩

theorem Starts.newLine {text text' : List Char} (h : Starts text) (h' : Starts text') (n : Nat) :
    Starts (text ++ newLine n ++ text') := by
  obtain ⟨r, rs, hlines, hbegins, hrows⟩ := h
  refine ⟨r, rs ++ lines (List.replicate n ' ' ++ text'), ?_, hbegins, ?_⟩
  · rw [Yaml.newLine, List.append_assoc, List.cons_append, lines_append_break, hlines]
    rfl
  · exact List.forall_mem_append.2 ⟨hrows, h'.row n⟩

theorem starts_joinLines {indent : Nat} {ls : List (List Char)} (hne : ls ≠ [])
    (h : ∀ l ∈ ls, Starts l) : Starts (joinLines indent ls) := by
  rw [joinLines]
  induction ls with
  | nil => exact absurd rfl hne
  | cons l ls ih =>
    rw [List.forall_mem_cons] at h
    cases ls with
    | nil =>
      rw [List.intercalate_singleton]
      exact h.1
    | cons l' ls =>
      rw [List.intercalate_cons_cons]
      exact h.1.newLine (ih (List.cons_ne_nil l' ls) h.2) indent

theorem Starts.gap {text : List Char} (h : Starts text) (n : Nat) (fresh : Bool) :
    Continues (gap n fresh ++ text) := by
  cases fresh with
  | false => exact h.continues.append (l := [' ']) (by decide)
  | true => exact (continues_line (l := []) List.not_mem_nil).newLine h n

/-! ## Written data -/

theorem mem_intercalate {α : Type} {sep : List α} {ls : List (List α)} {c : α}
    (h : c ∈ List.intercalate sep ls) : (∃ l ∈ ls, c ∈ l) ∨ c ∈ sep := by
  induction ls with
  | nil => cases h
  | cons l ls ih =>
    cases ls with
    | nil =>
      rw [List.intercalate_singleton] at h
      exact .inl ⟨l, List.mem_cons_self, h⟩
    | cons l' ls =>
      rw [List.intercalate_cons_cons, List.mem_append, List.mem_append] at h
      rcases h with (h | h) | h
      · exact .inl ⟨l, List.mem_cons_self, h⟩
      · exact .inr h
      · rcases ih h with ⟨m, hm, hc⟩ | hc
        · exact .inl ⟨m, List.mem_cons_of_mem l hm, hc⟩
        · exact .inr hc

theorem starts_item {text : List Char} (h : Continues (' ' :: text)) :
    Starts ('-' :: ' ' :: text) := by
  obtain ⟨r, rs, hlines⟩ := List.exists_cons_of_ne_nil (lines_ne_nil text)
  obtain ⟨m, ms, hlines', hrows⟩ := h
  have hspace := lines_append (l := [' ']) (by decide) hlines
  rw [show [' '] ++ text = ' ' :: text from rfl, hlines'] at hspace
  obtain ⟨rfl, rfl⟩ := List.cons.inj hspace
  exact ⟨'-' :: ' ' :: r, ms, lines_append (l := ['-', ' ']) (by decide) hlines,
    .inr (.inl ⟨r, rfl⟩), hrows⟩

theorem starts_entry {key text : List Char} (hkey : '\n' ∉ key) (h : Continues text) :
    Starts (key ++ ':' :: text) := by
  rw [List.append_cons]
  refine h.starts (by simpa using hkey) fun r => .inl ?_
  simp

theorem starts_longEntry {key text : List Char} {indent : Nat} (hkey : '\n' ∉ key)
    (h : Continues text) : Starts ('?' :: ' ' :: key ++ newLine indent ++ ':' :: text) := by
  have hmark : Starts ('?' :: ' ' :: key) := by
    refine (continues_line hkey).starts (l := ['?', ' ']) (by decide) fun r => ?_
    exact .inr (.inr ⟨r, rfl⟩)
  exact hmark.newLine (starts_entry (List.not_mem_nil (a := '\n')) h) indent

theorem starts_of_entryLine {k : String} {v : Value} {indent : Nat} {l : List Char}
    (hv : ∀ fresh text, valueText indent fresh v = .ok text → Continues text)
    (h : entryLine indent (.str k, v) = .ok l) : Starts l := by
  obtain ⟨simple, -, h⟩ := Except.bind_eq_ok_iff.1 h
  obtain ⟨key, hkey, h⟩ := Except.bind_eq_ok_iff.1 h
  obtain ⟨text, htext, h⟩ := Except.bind_eq_ok_iff.1 h
  have hline : '\n' ∉ key := fun hmem => (mem_scalarForm hkey hmem).2 rfl
  cases h
  split
  · exact starts_entry hline (hv _ text htext)
  · exact starts_longEntry hline (hv _ text htext)

theorem ne_nil_of_mapM {α ε : Type} {f : α → Except ε (List Char)} {xs : List α} (hne : xs ≠ [])
    {ls : List (List Char)} (h : xs.mapM f = .ok ls) : ls ≠ [] := by
  rintro rfl
  exact hne (List.forall₂_nil_right_iff.1 (Except.mapM_eq_ok_iff.1 h))

/-- The text of a value goes on; after a mark it begins with a space. -/
theorem continues_of_valueText {v : Value} (hv : Data v) {indent : Nat} {fresh : Bool}
    {text : List Char} (h : valueText indent fresh v = .ok text) :
    Continues text ∧ (fresh = false → ∃ r, text = ' ' :: r) := by
  have hgap {indent : Nat} {fresh : Bool} {ls : List (List Char)} (hne : ls ≠ [])
      (hls : ∀ l ∈ ls, Starts l) : Continues (gap indent fresh ++ joinLines indent ls) ∧
        (fresh = false → ∃ r, gap indent fresh ++ joinLines indent ls = ' ' :: r) := by
    refine ⟨(starts_joinLines hne hls).gap indent fresh, ?_⟩
    rintro rfl
    exact ⟨_, rfl⟩
  -- Only the lines of collections begin anew; scalars and brackets stay on their line.
  refine hv.valueText_induction
    (P := fun _ _ fresh text => Continues text ∧ (fresh = false → ∃ r, text = ' ' :: r))
    (fun _ hform => ?_) ⟨continues_line (by decide), fun _ => ⟨_, rfl⟩⟩
    ⟨continues_line (by decide), fun _ => ⟨_, rfl⟩⟩ (fun hne hls ih => ?_)
    (fun hne hkeys hls ih => ?_) h
  · refine ⟨continues_line fun hmem => ?_, fun _ => ⟨_, rfl⟩⟩
    rcases List.mem_cons.1 hmem with hmem | hmem
    · exact absurd hmem (by decide)
    · exact (mem_scalarForm hform hmem).2 rfl
  · refine hgap (ne_nil_of_mapM hne hls) fun l hl => ?_
    obtain ⟨v, hv, hline⟩ := Except.exists_of_mem_mapM hls hl
    obtain ⟨text, htext, hline⟩ := Except.bind_eq_ok_iff.1 hline
    cases hline
    obtain ⟨hcontinues, hspace⟩ := ih v hv htext
    obtain ⟨r, rfl⟩ := hspace rfl
    exact starts_item hcontinues
  · refine hgap (ne_nil_of_mapM hne hls) fun l hl => ?_
    obtain ⟨⟨j, v⟩, he, hline⟩ := Except.exists_of_mem_mapM hls hl
    obtain ⟨k, rfl⟩ := hkeys _ he
    exact starts_of_entryLine (fun fresh text htext => (ih _ he htext).1) hline

theorem not_mem_of_bracketed {indent : Nat} {items : List Value} {text : List Char}
    (h : bracketed indent items = .ok text) : '\n' ∉ text := by
  obtain ⟨texts, htexts, h⟩ := Except.bind_eq_ok_iff.1 h
  cases h
  intro hmem
  have hmem : '\n' ∈ List.intercalate [',', ' '] texts := by simpa using hmem
  rcases mem_intercalate hmem with ⟨l, hl, hmem⟩ | hmem
  · obtain ⟨v, -, hform⟩ := Except.exists_of_mem_mapM htexts hl
    exact (mem_scalarForm hform hmem).2 rfl
  · exact absurd hmem (by decide)

theorem starts_of_inlineEntry {k : String} {items : List Value} {l : List Char}
    (h : inlineEntry (.str k) items = .ok l) : Starts l := by
  obtain ⟨key, hkey, h⟩ := Except.bind_eq_ok_iff.1 h
  obtain ⟨text, htext, h⟩ := Except.bind_eq_ok_iff.1 h
  have hline : '\n' ∉ key := fun hmem => (mem_scalarForm hkey hmem).2 rfl
  have hcontinues : Continues (' ' :: text) :=
    continues_line (by simpa using not_mem_of_bracketed htext)
  have hstarts := starts_entry hline hcontinues
  cases h
  rwa [List.append_assoc]

theorem starts_of_topLine {inline : List String} {entries : List (Value × Value)}
    (hdata : Data (.map entries)) {e : Value × Value} (he : e ∈ entries) {l : List Char}
    (h : topLine inline e = .ok l) : Starts l := by
  have hv := hdata.values e he
  rcases top_cases inline (hdata.keys e he) with
    ⟨k, items, rfl, -, -, hline, -⟩ | ⟨⟨k, v, rfl⟩, hline, -⟩
  · rw [hline] at h
    exact starts_of_inlineEntry h
  · rw [hline] at h
    exact starts_of_entryLine (fun fresh text htext => (continues_of_valueText hv htext).1) h

/-- **The lines of a mapping are rows**, of which the first is not indented. -/
theorem starts_of_renderBody {inline : List String} {entries : List (Value × Value)}
    {text : List Char} (hne : entries ≠ []) (hdata : Data (.map entries))
    (h : renderBody inline entries = .ok text) : Starts text := by
  obtain ⟨ls, hls, rfl⟩ := exists_lines_of_renderBody hne h
  refine starts_joinLines (ne_nil_of_mapM hne hls) fun l hl => ?_
  obtain ⟨e, he, hline⟩ := Except.exists_of_mem_mapM hls hl
  exact starts_of_topLine hdata he hline

/-! ## Characters -/

/-- Whether all characters of a text are written as they are. -/
def AllShown (text : List Char) : Prop :=
  ∀ c ∈ text, isShown c = true

theorem AllShown.append {s t : List Char} (h : AllShown s) (h' : AllShown t) : AllShown (s ++ t) :=
  List.forall_mem_append.2 ⟨h, h'⟩

theorem AllShown.cons {c : Char} {s : List Char} (hc : isShown c = true) (h : AllShown s) :
    AllShown (c :: s) :=
  List.forall_mem_cons.2 ⟨hc, h⟩

theorem allShown_newLine (n : Nat) : AllShown (newLine n) := by
  refine .cons (by decide) fun c hc => ?_
  rw [List.eq_of_mem_replicate hc]
  decide

theorem allShown_gap (n : Nat) (fresh : Bool) : AllShown (gap n fresh) := by
  cases fresh with
  | false => exact .cons (by decide) nofun
  | true => exact allShown_newLine n

theorem allShown_scalarForm {place : Place} {indent : Nat} {v : Value} {text : List Char}
    (h : scalarForm place indent v = .ok text) : AllShown text :=
  fun _ hc => (mem_scalarForm h hc).1

theorem allShown_intercalate {sep : List Char} {ls : List (List Char)} (hsep : AllShown sep)
    (h : ∀ l ∈ ls, AllShown l) : AllShown (List.intercalate sep ls) := by
  intro c hc
  rcases mem_intercalate hc with ⟨l, hl, hc⟩ | hc
  · exact h l hl c hc
  · exact hsep c hc

theorem allShown_of_entryLine {k : String} {v : Value} {indent : Nat} {l : List Char}
    (hv : ∀ fresh text, valueText indent fresh v = .ok text → AllShown text)
    (h : entryLine indent (.str k, v) = .ok l) : AllShown l := by
  obtain ⟨simple, -, h⟩ := Except.bind_eq_ok_iff.1 h
  obtain ⟨key, hkey, h⟩ := Except.bind_eq_ok_iff.1 h
  obtain ⟨text, htext, h⟩ := Except.bind_eq_ok_iff.1 h
  have hkey := allShown_scalarForm hkey
  have htext := (hv _ text htext).cons (c := ':') (by decide)
  cases h
  split
  · exact hkey.append htext
  · exact ((hkey.cons (c := ' ') (by decide)).cons (c := '?') (by decide)).append
      (allShown_newLine indent) |>.append htext

theorem allShown_of_valueText {v : Value} (hv : Data v) {indent : Nat} {fresh : Bool}
    {text : List Char} (h : valueText indent fresh v = .ok text) : AllShown text := by
  have hgap {indent : Nat} {fresh : Bool} {ls : List (List Char)} (hls : ∀ l ∈ ls, AllShown l) :
      AllShown (gap indent fresh ++ joinLines indent ls) :=
    (allShown_gap indent fresh).append (allShown_intercalate (allShown_newLine indent) hls)
  refine hv.valueText_induction (P := fun _ _ _ text => AllShown text)
    (fun _ hform => (allShown_scalarForm hform).cons (by decide)) (List.all_eq_true.1 (by decide))
    (List.all_eq_true.1 (by decide)) (fun _ hls ih => hgap fun l hl => ?_)
    (fun _ hkeys hls ih => hgap fun l hl => ?_) h
  · obtain ⟨v, hv, hline⟩ := Except.exists_of_mem_mapM hls hl
    obtain ⟨text, htext, hline⟩ := Except.bind_eq_ok_iff.1 hline
    cases hline
    exact (ih v hv htext).cons (by decide)
  · obtain ⟨⟨j, v⟩, he, hline⟩ := Except.exists_of_mem_mapM hls hl
    obtain ⟨k, rfl⟩ := hkeys _ he
    exact allShown_of_entryLine (fun fresh text htext => ih _ he htext) hline

theorem allShown_of_inlineEntry {k : String} {items : List Value} {l : List Char}
    (h : inlineEntry (.str k) items = .ok l) : AllShown l := by
  obtain ⟨key, hkey, h⟩ := Except.bind_eq_ok_iff.1 h
  obtain ⟨text, htext, h⟩ := Except.bind_eq_ok_iff.1 h
  obtain ⟨texts, htexts, htext⟩ := Except.bind_eq_ok_iff.1 htext
  cases h
  cases htext
  have hmembers : AllShown (List.intercalate [',', ' '] texts) := by
    refine allShown_intercalate (List.all_eq_true.1 (by decide)) fun t ht => ?_
    obtain ⟨u, -, hform⟩ := Except.exists_of_mem_mapM htexts ht
    exact allShown_scalarForm hform
  have hclosed : AllShown ('[' :: List.intercalate [',', ' '] texts ++ [']']) :=
    (hmembers.cons (by decide)).append (List.all_eq_true.1 (by decide))
  exact ((allShown_scalarForm hkey).append (List.all_eq_true.1 (by decide))).append hclosed

theorem allShown_of_topLine {inline : List String} {entries : List (Value × Value)}
    (hdata : Data (.map entries)) {e : Value × Value} (he : e ∈ entries) {l : List Char}
    (h : topLine inline e = .ok l) : AllShown l := by
  have hv := hdata.values e he
  rcases top_cases inline (hdata.keys e he) with
    ⟨k, items, rfl, -, -, hline, -⟩ | ⟨⟨k, v, rfl⟩, hline, -⟩
  · rw [hline] at h
    exact allShown_of_inlineEntry h
  · rw [hline] at h
    exact allShown_of_entryLine (fun fresh text htext => allShown_of_valueText hv htext) h

/-- **The characters of a mapping** are written as they are. -/
theorem allShown_of_renderBody {inline : List String} {entries : List (Value × Value)}
    {text : List Char} (hne : entries ≠ []) (hdata : Data (.map entries))
    (h : renderBody inline entries = .ok text) : AllShown text := by
  obtain ⟨ls, hls, rfl⟩ := exists_lines_of_renderBody hne h
  refine allShown_intercalate (allShown_newLine 0) fun l hl => ?_
  obtain ⟨e, he, hline⟩ := Except.exists_of_mem_mapM hls hl
  exact allShown_of_topLine hdata he hline

/-! ## What a row is not -/

/-- A row, trimmed, names a key or begins with a mark. -/
theorem Row.trimmed {l : List Char} (h : Row l) :
    ':' ∈ trim l ∨ ∃ c t, (c = '-' ∨ c = '?') ∧ trim l <+: c :: ' ' :: t := by
  obtain ⟨n, r, rfl, h⟩ := h
  have hspaces : Blank (List.replicate n ' ') := by
    intro c hc
    rw [List.eq_of_mem_replicate hc]
    decide
  rw [trim_append hspaces]
  rcases h with h | ⟨t, rfl⟩ | ⟨t, rfl⟩
  · exact .inl (mem_trim_of_mem h (by decide))
  · exact .inr ⟨'-', t, .inl rfl, prefix_trim (by decide) _⟩
  · exact .inr ⟨'?', t, .inr rfl, prefix_trim (by decide) _⟩

theorem Starts.forall_row {text : List Char} (h : Starts text) : ∀ l ∈ lines text, Row l :=
  h.row 0

end Storyline.Yaml
