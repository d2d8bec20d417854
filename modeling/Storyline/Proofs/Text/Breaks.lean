import Mathlib.Data.List.Infix
import Storyline.Proofs.Text.Lines

/-!
# Normalized line breaks

Normalizing writes a carriage return and a line feed as a line feed. It does so once, so of several
carriage returns in front of a line feed all but one are left, and what is normalized may have
breaks that normalizing changes again.

## Main definitions

* `returns`: carriage returns and a line feed

## Main results

* `normalizeBreaks_eq_self`: without carriage returns in front of line feeds nothing is changed
* `returns_of_normalizeBreaks`: what has carriage returns in front of a line feed after it was
  normalized had one more of them before
* `returns_of_append`, `exists_returns_of_unlines`: in which of several texts they are
-/

namespace Storyline.Text

/-! ## One text in front of another -/

/-- What does not end in a carriage return is normalized by itself in front of another text. -/
theorem normalizeBreaks_append_of_last {s : List Char} (h : ∀ c ∈ s.getLast?, c ≠ '\r')
    (t : List Char) : normalizeBreaks (s ++ t) = normalizeBreaks s ++ normalizeBreaks t := by
  have htail {c : Char} {r : List Char} (hr : ∀ d ∈ (c :: r).getLast?, d ≠ '\r') :
      ∀ d ∈ r.getLast?, d ≠ '\r' := fun d hd => hr d (by rw [List.getLast?_cons, hd]; rfl)
  induction s using normalizeBreaks.induct with
  | case1 => rfl
  | case2 r ih =>
    show '\n' :: normalizeBreaks (r ++ t) = '\n' :: (normalizeBreaks r ++ normalizeBreaks t)
    rw [ih (htail (htail h))]
  | case3 c r hpair ih =>
    rw [List.cons_append, normalizeBreaks, normalizeBreaks, ih (htail h), List.cons_append]
    · exact hpair
    · rintro r' rfl hr'
      cases r with
      | nil => exact h '\r' rfl rfl
      | cons d r => exact hpair r rfl (by rw [(List.cons.inj hr').1])

theorem normalizeBreaks_of_no_return {s : List Char} (h : '\r' ∉ s) : normalizeBreaks s = s := by
  rw [← List.append_nil s, normalizeBreaks_append h]
  rfl

/-! ## Carriage returns in front of a line feed -/

/-- Carriage returns and a line feed. -/
def returns (k : Nat) : List Char :=
  List.replicate k '\r' ++ ['\n']

theorem returns_succ (k : Nat) : returns (k + 1) = '\r' :: returns k := rfl

/-- A text is normalized if no line feed of it is behind a carriage return. -/
theorem normalizeBreaks_eq_self {s : List Char} (h : ¬returns 1 <:+: s) :
    normalizeBreaks s = s := by
  induction s using normalizeBreaks.induct with
  | case1 => rfl
  | case2 r ih => exact absurd ⟨[], r, rfl⟩ h
  | case3 c r hpair ih =>
    rw [normalizeBreaks, ih fun hr => h (List.infix_cons hr)]
    exact hpair

theorem not_returns_of_no_break {s : List Char} (h : '\n' ∉ s) (k : Nat) : ¬returns k <:+: s := by
  intro hwithin
  exact h (hwithin.mem (by simp [returns]))

theorem not_returns_of_no_return {s : List Char} (h : '\r' ∉ s) (k : Nat) :
    ¬returns (k + 1) <:+: s := by
  intro hwithin
  exact h (hwithin.mem (by simp [returns_succ]))

theorem normalizeBreaks_of_no_break {s : List Char} (h : '\n' ∉ s) : normalizeBreaks s = s :=
  normalizeBreaks_eq_self (not_returns_of_no_break h 1)

/-- In a text that does not begin with a line feed, one carriage return more is in front of the
first line feed than after normalizing. -/
theorem prefix_of_prefix_normalizeBreaks {s : List Char} {k : Nat} (hs : ∀ r, s ≠ '\n' :: r)
    (h : returns k <+: normalizeBreaks s) : returns (k + 1) <+: s := by
  induction s using normalizeBreaks.induct generalizing k with
  | case1 => simp [normalizeBreaks, returns] at h
  | case2 r ih =>
    cases k with
    | zero => exact ⟨r, rfl⟩
    | succ k =>
      rw [normalizeBreaks, returns_succ, List.cons_prefix_cons] at h
      exact absurd h.1 (by decide)
  | case3 c r hpair ih =>
    rw [normalizeBreaks] at h
    · cases k with
      | zero =>
        obtain ⟨rfl, -⟩ := List.cons_prefix_cons.1 h
        exact absurd rfl (hs r)
      | succ k =>
        obtain ⟨rfl, hrest⟩ := List.cons_prefix_cons.1 h
        rw [returns_succ]
        exact List.cons_prefix_cons.2 ⟨rfl, ih (fun r' hr => hpair r' rfl hr) hrest⟩
    · exact hpair

/-- **What has carriage returns in front of a line feed after it was normalized had one more of them
before.** -/
theorem returns_of_normalizeBreaks {s : List Char} {k : Nat} (hk : 0 < k)
    (h : returns k <:+: normalizeBreaks s) : returns (k + 1) <:+: s := by
  obtain ⟨k, rfl⟩ := Nat.exists_eq_add_of_lt hk
  rw [Nat.zero_add] at *
  induction s using normalizeBreaks.induct with
  | case1 =>
    rw [normalizeBreaks, List.infix_nil] at h
    cases h
  | case2 r ih =>
    rw [normalizeBreaks, List.infix_cons_iff] at h
    rcases h with h | h
    · exact absurd (List.cons_prefix_cons.1 h).1 (by decide)
    · exact List.infix_cons (List.infix_cons (ih h))
  | case3 c r hpair ih =>
    rw [normalizeBreaks] at h
    · rcases List.infix_cons_iff.1 h with h | h
      · obtain ⟨rfl, hrest⟩ := List.cons_prefix_cons.1 h
        refine (List.cons_prefix_cons.2 ⟨rfl, ?_⟩).isInfix
        exact prefix_of_prefix_normalizeBreaks (fun r' hr => hpair r' rfl hr) hrest
      · exact List.infix_cons (ih h)
    · exact hpair

/-- Where two texts meet there are none if the first does not end in a carriage return. -/
theorem returns_of_append {s t : List Char} {k : Nat} (hs : ∀ c ∈ s.getLast?, c ≠ '\r')
    (h : returns (k + 1) <:+: s ++ t) : returns (k + 1) <:+: s ∨ returns (k + 1) <:+: t := by
  rcases List.infix_append_iff.1 h with h | h | ⟨u, v, huv, hu, hv⟩
  · exact .inl h
  · exact .inr h
  rcases List.eq_nil_or_concat u with rfl | ⟨u, c, rfl⟩
  · rw [huv]
    exact .inr hv.isInfix
  rcases List.eq_nil_or_concat v with rfl | ⟨v, d, rfl⟩
  · rw [huv, List.append_nil]
    exact .inl hu.isInfix
  -- The character before the two texts meet would be a carriage return.
  rw [List.concat_eq_append, List.concat_eq_append, ← List.append_assoc, returns] at huv
  have hreplicate := (List.append_inj' huv rfl).1
  have hc : c ∈ List.replicate (k + 1) '\r' := by
    rw [hreplicate]
    simp
  obtain ⟨w, rfl⟩ := hu
  rw [List.concat_eq_append, ← List.append_assoc] at hs
  exact absurd (List.eq_of_mem_replicate hc) (hs c List.getLast?_concat)

/-- Of texts that are joined one has them, if none of the texts ends in a carriage return. -/
theorem exists_returns_of_unlines {ls : List (List Char)} {k : Nat}
    (hls : ∀ l ∈ ls, ∀ c ∈ l.getLast?, c ≠ '\r') (h : returns (k + 1) <:+: unlines ls) :
    ∃ l ∈ ls, returns (k + 1) <:+: l := by
  induction ls with
  | nil =>
    rw [unlines, List.infix_nil] at h
    cases h
  | cons l ls ih =>
    obtain ⟨hl, hls⟩ := List.forall_mem_cons.1 hls
    by_cases hnil : ls = []
    · rw [hnil] at h
      exact ⟨l, List.mem_cons_self, h⟩
    rw [unlines_nil_cons l hnil] at h
    rcases returns_of_append hl h with h | h
    · exact ⟨l, List.mem_cons_self, h⟩
    rw [← List.singleton_append] at h
    rcases returns_of_append (by simp) h with h | h
    · exact absurd h (not_returns_of_no_return (by simp) k)
    obtain ⟨m, hm, hwithin⟩ := ih hls h
    exact ⟨m, List.mem_cons_of_mem l hm, hwithin⟩

end Storyline.Text
