import Storyline.Proofs.Outcome
import Storyline.Proofs.Text.Trim
import Storyline.Proofs.Yaml.Number
import Storyline.Value.Text

/-!
# The ends of written values

Where a name is wanted, any value may stand, and its text is the name. Only a string may have blanks
at its ends: every other value is written with a mark, a letter or a digit at both ends.

## Main results

* `filled_floatText`, `filled_intDigits`: numbers have no blank ends
* `filled_text`: neither has any other value but a string
-/

namespace Storyline

open Text

/-! ## Numbers -/

theorem filled_of_figures {s : List Char} (hne : s ≠ []) (h : ∀ c ∈ s, c ∈ Yaml.figures) :
    Filled s := by
  refine filled_of_forall hne fun c hc => ?_
  simpa using Yaml.of_mem_figures (p := fun c => !isBlank c) (h c hc) (by decide)

theorem filled_intDigits (n : Int) : Filled (Number.intDigits n) := by
  obtain ⟨c, r, hs, -⟩ := (Yaml.figures_intDigits n).start
  exact filled_of_figures (hs ▸ List.cons_ne_nil c r) (Yaml.figures_intDigits n).figure

section

variable {ds : List Char} {k : Int}

theorem figures_zeros (n : Nat) : ∀ c ∈ List.replicate n '0', c ∈ Yaml.figures := by
  intro c hc
  rw [List.eq_of_mem_replicate hc]
  decide

theorem figures_pointZero : ∀ c ∈ ['.', '0'], c ∈ Yaml.figures := by
  simp [Yaml.figures]

theorem positional_ne_nil : Number.positional ds k ≠ [] := by
  unfold Number.positional
  dsimp only
  split
  · simp
  · split <;> simp

theorem scientific_ne_nil {layout : Number.Layout} : Number.scientific layout ds k ≠ [] := by
  simp [Number.scientific]

theorem figures_positional (hds : ∀ c ∈ ds, c ∈ Yaml.figures) :
    ∀ c ∈ Number.positional ds k, c ∈ Yaml.figures := by
  unfold Number.positional
  dsimp only
  split
  · rw [List.forall_mem_append, List.forall_mem_cons, List.forall_mem_cons]
    exact ⟨⟨by decide, by decide, figures_zeros _⟩, hds⟩
  · split
    · rw [List.forall_mem_append, List.forall_mem_append]
      exact ⟨⟨hds, figures_zeros _⟩, figures_pointZero⟩
    · rw [List.forall_mem_append, List.forall_mem_cons]
      exact ⟨fun c hc => hds c (List.mem_of_mem_take hc), by decide,
        fun c hc => hds c (List.mem_of_mem_drop hc)⟩

theorem figures_scientific (layout : Number.Layout) (hds : ∀ c ∈ ds, c ∈ Yaml.figures) :
    ∀ c ∈ Number.scientific layout ds k, c ∈ Yaml.figures := by
  unfold Number.scientific
  dsimp only
  have hsign : (if k < 0 then '-' else '+') ∈ Yaml.figures := by split <;> decide
  have hwidth : ∀ c ∈ Nat.toDigits 10 k.natAbs, c ∈ Yaml.figures := fun c hc =>
    Yaml.mem_figures_of_isDigit (Number.isDigit_of_mem_toDigits hc)
  rw [List.forall_mem_append, List.forall_mem_append, List.forall_mem_cons, List.forall_mem_cons]
  refine ⟨⟨?_, by decide, hsign, figures_zeros _⟩, hwidth⟩
  rcases ds with _ | ⟨d, _ | ⟨e, r⟩⟩
  · exact List.forall_mem_nil _
  · dsimp only
    split
    · exact List.forall_mem_cons.2 ⟨hds d List.mem_cons_self, figures_pointZero⟩
    · exact hds
  · obtain ⟨hd, hr⟩ := List.forall_mem_cons.1 hds
    exact List.forall_mem_cons.2 ⟨hd, List.forall_mem_cons.2 ⟨by decide, hr⟩⟩

theorem filled_signed (negative : Bool) (hne : ds ≠ []) (hds : ∀ c ∈ ds, c ∈ Yaml.figures) :
    Filled (if negative then '-' :: ds else ds) := by
  split
  · exact filled_of_figures (List.cons_ne_nil '-' ds) (List.forall_mem_cons.2 ⟨by decide, hds⟩)
  · exact filled_of_figures hne hds

end

theorem filled_floatText (x : Float) : Filled (Number.floatText x).toList := by
  unfold Number.floatText Number.render
  split
  · exact filled_of_figures (by decide) (by simp [Yaml.figures])
  · split <;> exact filled_of_figures (by decide) (by simp [Yaml.figures])
  · next negative m e _ =>
    dsimp only
    rw [String.toList_ofList]
    have hds : ∀ c ∈ Nat.toDigits 10 (Number.shortest m e).1, c ∈ Yaml.figures := fun c hc =>
      Yaml.mem_figures_of_isDigit (Number.isDigit_of_mem_toDigits hc)
    refine filled_signed negative ?_ ?_
    · split
      · exact positional_ne_nil
      · exact scientific_ne_nil
    · split
      · exact figures_positional hds
      · exact figures_scientific _ hds

/-! ## Other values -/

theorem filled_padded (width n : Nat) : Filled (padded width n).toList := by
  rw [padded, String.toList_ofList]
  refine filled_of_figures ?_ ?_
  · simp [Nat.toDigits_ne_nil]
  · rw [List.forall_mem_append]
    exact ⟨figures_zeros _, fun c hc =>
      Yaml.mem_figures_of_isDigit (Number.isDigit_of_mem_toDigits hc)⟩

theorem filled_appendText {a b : String} (ha : Filled a.toList) (hb : Filled b.toList) :
    Filled (a ++ b).toList := by
  rw [String.toList_append]
  exact ha.append hb

/-- Text between two marks is filled. -/
theorem filled_enclosed {a b : String} (ha : Filled a.toList) (hb : Filled b.toList)
    (t : String) : Filled (a ++ t ++ b).toList := by
  rw [String.toList_append, String.toList_append]
  exact ha.between hb _

theorem filled_mark {c : Char} (h : isBlank c = false) : Filled [c] :=
  filled_of_forall (List.cons_ne_nil c []) (by simpa using h)

theorem filled_dateText (d : Date) : Filled d.text.toList := by
  have hhyphen : Filled "-".toList := filled_mark (c := '-') (by decide)
  exact filled_appendText (filled_appendText (filled_appendText (filled_appendText
    (filled_padded 4 d.year) hhyphen) (filled_padded 2 d.month)) hhyphen) (filled_padded 2 d.day)

theorem filled_appendText_or {a b : String} (ha : Filled a.toList)
    (hb : b = "" ∨ Filled b.toList) : Filled (a ++ b).toList := by
  rcases hb with rfl | hb
  · simpa using ha
  · exact filled_appendText ha hb

theorem filled_momentText (t : Moment) : Filled t.text.toList := by
  have hcolon : Filled ":".toList := filled_mark (c := ':') (by decide)
  have htime : Filled (":".intercalate [padded 2 t.hour, padded 2 t.minute,
      padded 2 t.second]).toList :=
    filled_appendText (filled_appendText (filled_appendText (filled_appendText
      (filled_padded 2 t.hour) hcolon) (filled_padded 2 t.minute)) hcolon)
      (filled_padded 2 t.second)
  unfold Moment.text
  dsimp only
  refine filled_appendText_or (filled_appendText_or
    (filled_enclosed (filled_dateText t.date) htime " ") ?_) ?_
  · split
    · exact .inl rfl
    · exact .inr (filled_appendText (filled_mark (c := '.') (by decide)) (filled_padded 6 _))
  · cases t.offset with
    | none => exact .inl rfl
    | some m =>
      have hsign : Filled (if m < 0 then "-" else "+").toList := by
        split
        · exact filled_mark (c := '-') (by decide)
        · exact filled_mark (c := '+') (by decide)
      exact .inr (filled_appendText (filled_appendText (filled_appendText hsign
        (filled_padded 2 (m.natAbs / 60))) hcolon) (filled_padded 2 (m.natAbs % 60)))

theorem filled_quotedBytes (bs : List UInt8) : Filled (quotedBytes bs).toList := by
  have hquote (s : List Char) : Filled [quoteFor s] := by
    refine filled_mark ?_
    unfold quoteFor
    split <;> decide
  rw [quotedBytes, String.toList_ofList]
  exact (filled_mark (c := 'b') (by decide)).between (hquote _) (_ :: _)

theorem filled_literal {v : Value} {s : String} (hv : ∀ t, v ≠ .str t) (hd : ∀ d, v ≠ .date d)
    (hm : ∀ t, v ≠ .moment t) (h : v.literal = .ok s) : Filled s.toList := by
  have hopen : Filled "\x7b".toList := filled_mark (c := '\x7b') (by decide)
  have hclose : Filled "\x7d".toList := filled_mark (c := '\x7d') (by decide)
  cases v with
  | null =>
    rw [Value.literal] at h
    obtain rfl := Except.ok.inj h
    exact filled_of_forall (by decide) (by simp [isBlank, isAsciiBlank])
  | bool b =>
    rw [Value.literal] at h
    obtain rfl := Except.ok.inj h
    cases b <;> exact filled_of_forall (by decide) (by simp [isBlank, isAsciiBlank])
  | int n =>
    rw [Value.literal, Number.writeInt] at h
    split at h
    · cases h
    · obtain rfl := Except.ok.inj h
      rw [String.toList_ofList]
      exact filled_intDigits n
  | float x =>
    rw [Value.literal] at h
    obtain rfl := Except.ok.inj h
    exact filled_floatText x
  | str t => exact absurd rfl (hv t)
  | date d => exact absurd rfl (hd d)
  | moment t => exact absurd rfl (hm t)
  | bytes bs =>
    rw [Value.literal] at h
    obtain rfl := Except.ok.inj h
    exact filled_quotedBytes bs
  | set members =>
    rw [Value.literal] at h
    split at h
    · obtain rfl := Except.ok.inj h
      exact filled_of_forall (by decide) (by simp [isBlank, isAsciiBlank])
    · obtain ⟨ls, -, hs⟩ := Except.bind_eq_ok_iff.1 h
      obtain rfl := Except.ok.inj hs
      exact filled_enclosed hopen hclose _
  | pair a b =>
    have hround : Filled "(".toList := filled_mark (c := '(') (by decide)
    have hround' : Filled ")".toList := filled_mark (c := ')') (by decide)
    rw [Value.literal] at h
    obtain ⟨x, -, h⟩ := Except.bind_eq_ok_iff.1 h
    obtain ⟨y, -, hs⟩ := Except.bind_eq_ok_iff.1 h
    obtain rfl := Except.ok.inj hs
    have hassoc : "(" ++ x ++ ", " ++ y = "(" ++ (x ++ ", " ++ y) := by
      simp only [String.append_assoc]
    rw [hassoc]
    exact filled_enclosed hround hround' _
  | list items =>
    have hsquare : Filled "[".toList := filled_mark (c := '[') (by decide)
    have hsquare' : Filled "]".toList := filled_mark (c := ']') (by decide)
    rw [Value.literal] at h
    obtain ⟨ls, -, hs⟩ := Except.bind_eq_ok_iff.1 h
    obtain rfl := Except.ok.inj hs
    exact filled_enclosed hsquare hsquare' _
  | map entries =>
    rw [Value.literal] at h
    obtain ⟨ls, -, hs⟩ := Except.bind_eq_ok_iff.1 h
    obtain rfl := Except.ok.inj hs
    exact filled_enclosed hopen hclose _

/-- **A value that is no string is written without blanks at its ends.** -/
theorem filled_text {v : Value} {s : String} (hv : ∀ t, v ≠ .str t) (h : v.text = .ok s) :
    Filled s.toList := by
  unfold Value.text at h
  split at h
  · next t => exact absurd rfl (hv t)
  · next d =>
    obtain rfl := Except.ok.inj h
    exact filled_dateText d
  · next t =>
    obtain rfl := Except.ok.inj h
    exact filled_momentText t
  · next hd hm => exact filled_literal hv hd hm h

end Storyline
