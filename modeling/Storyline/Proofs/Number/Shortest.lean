import Storyline.Proofs.Number.Nearest

/-!
# Shortest digits round back

The digits that are written for a double lie in the interval around it. A grid on which neighbours
are nearer to each other than the interval is wide has a point inside, and among the grids that are
tried the one of seventeen digits is so fine.

## Main results

* `pointPosition_spec`: the power of ten below a quotient
* `near_of_onGrid`, `exists_onGrid`: points of a grid in the interval
* `shortest_near`: the shortest digits of a double round to it
-/

namespace Storyline.Number

theorem ten_zpow_pos (p : Int) : (0 : ℚ) < 10 ^ p :=
  zpow_pos (by norm_num) p

/-! ## The decimal point -/

/-- The number of digits of a natural tells between which powers of ten it is. -/
theorem pow_length_toDigits {n : Nat} (hn : 0 < n) :
    10 ^ ((Nat.toDigits 10 n).length - 1) ≤ n ∧ n < 10 ^ (Nat.toDigits 10 n).length := by
  have hlt : n < 10 ^ (Nat.toDigits 10 n).length :=
    (Nat.length_toDigits_le_iff (by decide) Nat.length_toDigits_pos).1 le_rfl
  refine ⟨?_, hlt⟩
  rcases Nat.eq_zero_or_pos ((Nat.toDigits 10 n).length - 1) with hzero | hpos
  · rw [hzero]
    exact hn
  · by_contra hle
    have h := (Nat.length_toDigits_le_iff (by decide) hpos).2 (not_le.1 hle)
    omega

/-- What the search for the first digit behind the point finds. -/
theorem pointPosition_go_spec {den : Nat} (hden : 0 < den) (fuel n : Nat) (k : Int)
    (hlt : n < den) (hfuel : den ≤ n * 10 ^ fuel) :
    (10 : ℚ) ^ (pointPosition.go den fuel n k - 1) ≤ n / den * 10 ^ k ∧
      (n : ℚ) / den * 10 ^ k < 10 ^ pointPosition.go den fuel n k := by
  have hden' : (0 : ℚ) < den := Nat.cast_pos.2 hden
  -- What the search keeps is the quotient times a power of ten.
  induction fuel generalizing n k with
  | zero => omega
  | succ fuel ih =>
    unfold pointPosition.go
    by_cases h : den ≤ n * 10
    · rw [if_pos h]
      have hk := ten_zpow_pos k
      have h' : (den : ℚ) ≤ n * 10 := by exact_mod_cast h
      have hlt' : (n : ℚ) < den := by exact_mod_cast hlt
      constructor
      · rw [zpow_sub_one₀ (by norm_num), div_mul_eq_mul_div, le_div_iff₀ hden']
        nlinarith
      · rw [div_mul_eq_mul_div, div_lt_iff₀ hden']
        nlinarith
    · rw [if_neg h]
      have hrec := ih (n * 10) (k - 1) (not_le.1 h) (by rw [mul_assoc, ← pow_succ']; exact hfuel)
      have heq : ((n * 10 : Nat) : ℚ) / den * 10 ^ (k - 1) = n / den * 10 ^ k := by
        rw [zpow_sub_one₀ (by norm_num)]
        push_cast
        ring
      rwa [heq] at hrec

/-- The power of ten below a quotient that is not too small. -/
theorem pointPosition_spec {num den : Nat} (hden : 0 < den)
    (hleast : den ≤ num * 10 ^ 400) :
    (10 : ℚ) ^ (pointPosition num den - 1) ≤ num / den ∧
      (num : ℚ) / den < 10 ^ pointPosition num den := by
  have hden' : (0 : ℚ) < den := Nat.cast_pos.2 hden
  unfold pointPosition
  by_cases h : den ≤ num
  · rw [if_pos h]
    obtain ⟨hle, hlt⟩ := pow_length_toDigits (Nat.div_pos h hden)
    have hlength := @Nat.length_toDigits_pos 10 (num / den)
    generalize (Nat.toDigits 10 (num / den)).length = k at *
    constructor
    · rw [show ((k : Int) - 1) = ((k - 1 : Nat) : Int) by omega, zpow_natCast, le_div_iff₀ hden']
      exact_mod_cast (Nat.le_div_iff_mul_le hden).1 hle
    · rw [zpow_natCast, div_lt_iff₀ hden']
      exact_mod_cast (Nat.div_lt_iff_lt_mul hden).1 hlt
  · rw [if_neg h]
    have hgo := pointPosition_go_spec hden 400 num 0 (not_le.1 h) hleast
    rwa [zpow_zero, mul_one] at hgo

/-! ## Grids -/

/-- A power of ten as a quotient: what is above the line. -/
def gridUp (p : Int) : Nat :=
  if 0 ≤ p then Nat.pow 10 p.toNat else 1

/-- A power of ten as a quotient: what is below the line. -/
def gridDown (p : Int) : Nat :=
  if 0 ≤ p then 1 else Nat.pow 10 (-p).toNat

theorem grid_spec (p : Int) :
    0 < gridUp p ∧ 0 < gridDown p ∧ (gridUp p : ℚ) / gridDown p = 10 ^ p := by
  unfold gridUp gridDown
  by_cases hp : 0 ≤ p
  · obtain ⟨k, rfl⟩ := Int.eq_ofNat_of_zero_le hp
    rw [if_pos hp, if_pos hp]
    refine ⟨Nat.pow_pos (by decide), one_pos, ?_⟩
    simp [zpow_natCast]
  · obtain ⟨k, hk⟩ := Int.eq_ofNat_of_zero_le (a := -p) (by omega)
    rw [if_neg hp, if_neg hp, hk]
    refine ⟨one_pos, Nat.pow_pos (by decide), ?_⟩
    rw [← neg_neg p, hk, zpow_neg, zpow_natCast]
    simp

/-- The point of a grid on or below the value of an interval. -/
def Interval.gridBelow (i : Interval) (p : Int) : Nat :=
  i.value * gridDown p / (i.den * gridUp p)

/-- Whether a point of a grid is in an interval. -/
def Interval.holdsOnGrid (i : Interval) (p : Int) (d : Nat) : Bool :=
  i.holds (d * gridUp p) (gridDown p)

/-- Whether a point of the grid is taken and is in the interval. -/
def Interval.Takes (i : Interval) (p : Int) (taken : Option Nat) : Prop :=
  ∃ d, taken = some d ∧ i.holdsOnGrid p d = true

theorem Interval.Takes.ite {i : Interval} {p : Int} {q : Prop} [Decidable q] {a b : Option Nat}
    (ha : i.Takes p a) (hb : i.Takes p b) : i.Takes p (if q then a else b) := by
  split
  · exact ha
  · exact hb

/-- What is found on a grid is in the interval; if nothing is, neither point around the value is. -/
theorem onGrid_cases (i : Interval) (p : Int) :
    i.onGrid p = none ∧ i.holdsOnGrid p (i.gridBelow p) = false ∧
      i.holdsOnGrid p (i.gridBelow p + 1) = false ∨
    ∃ d, i.onGrid p = some d ∧ i.holdsOnGrid p d = true := by
  unfold Interval.onGrid
  dsimp only
  split
  · next hlow hhigh => exact .inl ⟨rfl, hlow, hhigh⟩
  · next hlow hhigh => exact .inr ⟨_, rfl, hlow⟩
  · next hlow hhigh => exact .inr ⟨_, rfl, hhigh⟩
  · next hlow hhigh =>
    -- Both points are in the interval, so whichever is taken is.
    have hlow : i.Takes p (some (i.gridBelow p)) := ⟨_, rfl, hlow⟩
    have hhigh : i.Takes p (some (i.gridBelow p + 1)) := ⟨_, rfl, hhigh⟩
    exact .inr (hlow.ite (hhigh.ite (hlow.ite hhigh)))

theorem holdsOnGrid_iff {m : Nat} (hm : 0 < m) (e p : Int) (d : Nat) :
    (Interval.around m e).holdsOnGrid p d = true ↔ Near m e (d * 10 ^ p) := by
  obtain ⟨-, hdown, hgrid⟩ := grid_spec p
  rw [Interval.holdsOnGrid, holds_iff hm e hdown, ← hgrid, ← mul_div_assoc, ← Nat.cast_mul]

theorem around_value (m : Nat) (e : Int) :
    0 < (Interval.around m e).den ∧
      ((Interval.around m e).value : ℚ) / (Interval.around m e).den = m * 2 ^ e := by
  obtain ⟨hp, hscaled⟩ := scaled_spec 1 (show 0 < 4 by decide) e
  refine ⟨hp, ?_⟩
  rw [around_eq]
  dsimp only
  rw [Nat.cast_mul, mul_div_assoc, hscaled]
  push_cast
  ring

/-- A number that is not in the interval, and not above the double, is not above its lower end. -/
theorem le_of_not_near {m : Nat} {e : Int} {q : ℚ} (hq : q ≤ m * 2 ^ e) (h : ¬ Near m e q) :
    q ≤ (4 * m - below m e) / 4 * 2 ^ e := by
  have hpow := two_zpow_pos e
  unfold Near at h
  by_contra hlt
  rw [not_le] at hlt
  split at h
  · exact h ⟨hlt.le, by nlinarith⟩
  · exact h ⟨hlt, by nlinarith⟩

theorem ge_of_not_near {m : Nat} {e : Int} {q : ℚ} (hq : m * 2 ^ e ≤ q) (h : ¬ Near m e q) :
    (4 * m + 2) / 4 * 2 ^ e ≤ q := by
  have hpow := two_zpow_pos e
  have hbelow : (1 : ℚ) ≤ below m e := by
    unfold below
    split <;> norm_num
  unfold Near at h
  by_contra hlt
  rw [not_le] at hlt
  split at h
  · exact h ⟨by nlinarith, hlt.le⟩
  · exact h ⟨by nlinarith, hlt⟩

/-- A point of a grid that is found is in the interval. -/
theorem near_of_onGrid {m : Nat} {e p : Int} (hm : 0 < m) {d : Nat}
    (h : (Interval.around m e).onGrid p = some d) : Near m e (d * 10 ^ p) := by
  rcases onGrid_cases (Interval.around m e) p with ⟨hnone, -⟩ | ⟨c, hc, hholds⟩
  · rw [hnone] at h
    cases h
  · rw [hc] at h
    cases h
    exact (holdsOnGrid_iff hm e p d).1 hholds

/-- A grid that is finer than the interval is wide has a point inside. -/
theorem exists_onGrid {m : Nat} {e p : Int} (hm : 0 < m)
    (hfine : (10 : ℚ) ^ p < (2 + below m e) / 4 * 2 ^ e) :
    ∃ d, (Interval.around m e).onGrid p = some d := by
  rcases onGrid_cases (Interval.around m e) p with ⟨-, hlow, hhigh⟩ | ⟨d, hd, -⟩
  swap
  · exact ⟨d, hd⟩
  exfalso
  obtain ⟨hup, hdown, hgrid⟩ := grid_spec p
  obtain ⟨hden, hvalue⟩ := around_value m e
  rw [← Bool.not_eq_true, holdsOnGrid_iff hm] at hlow hhigh
  unfold Interval.gridBelow at hlow hhigh
  generalize gridUp p = up at *
  generalize gridDown p = down at *
  generalize (Interval.around m e).value = value at *
  generalize (Interval.around m e).den = den at *
  have hup' : (0 : ℚ) < up := Nat.cast_pos.2 hup
  have hdown' : (0 : ℚ) < down := Nat.cast_pos.2 hdown
  have hden' : (0 : ℚ) < den := Nat.cast_pos.2 hden
  have hpos : 0 < den * up := Nat.mul_pos hden hup
  have hquotient : (m * 2 ^ e : ℚ) = value * down / (den * up) * 10 ^ p := by
    rw [← hvalue, ← hgrid]
    field_simp
  have hten := ten_zpow_pos p
  -- The two points of the grid around the double are on either side of it.
  have hfloor₁ : ((value * down / (den * up) : Nat) : ℚ) * 10 ^ p ≤ m * 2 ^ e := by
    rw [hquotient, mul_le_mul_iff_left₀ hten]
    exact_mod_cast Nat.cast_div_le
  have hfloor₂ : (m * 2 ^ e : ℚ) ≤ (value * down / (den * up) + 1 : Nat) * 10 ^ p := by
    rw [hquotient, mul_le_mul_iff_left₀ hten, div_le_iff₀ (mul_pos hden' hup')]
    exact_mod_cast (Nat.lt_mul_of_div_lt (Nat.lt_succ_self _) hpos).le
  have h₁ := le_of_not_near hfloor₁ hlow
  have h₂ := ge_of_not_near hfloor₂ hhigh
  push_cast at h₂
  linarith

/-! ## The shortest digits -/

/-- Zeros at the end of digits are made up for. -/
theorem stripZeros_spec (fuel d : Nat) (p : Int) :
    ((stripZeros fuel d p).1 : ℚ) * 10 ^ (stripZeros fuel d p).2 = d * 10 ^ p ∧
      (stripZeros fuel d p).1 ≤ d := by
  induction fuel generalizing d p with
  | zero => exact ⟨rfl, le_rfl⟩
  | succ fuel ih =>
    unfold stripZeros
    by_cases h : d ≠ 0 && d % 10 = 0
    · rw [if_pos h]
      rw [Bool.and_eq_true, decide_eq_true_eq, decide_eq_true_eq] at h
      obtain ⟨hvalue, hle⟩ := ih (d / 10) (p + 1)
      refine ⟨?_, hle.trans (Nat.div_le_self d 10)⟩
      have hd : (d : ℚ) = (d / 10 : Nat) * 10 := by
        exact_mod_cast (Nat.div_mul_cancel (Nat.dvd_of_mod_eq_zero h.2)).symm
      rw [hvalue, zpow_add_one₀ (by norm_num), hd]
      ring
    · rw [if_neg h]
      exact ⟨rfl, le_rfl⟩

/-- The search ends at a grid with a point in the interval, if one of its grids has one. -/
theorem shortest_go_spec {i : Interval} {fuel : Nat} {p : Int} {j : Nat} (hj : j < fuel)
    (h : ∃ d, i.onGrid (p - j) = some d) :
    ∃ d q, p - fuel < q ∧ i.onGrid q = some d ∧ shortest.go i fuel p = stripZeros 20 d q := by
  induction fuel generalizing p j with
  | zero => omega
  | succ fuel ih =>
    unfold shortest.go
    cases hp : i.onGrid p with
    | some d => exact ⟨d, p, by omega, hp, rfl⟩
    | none =>
      obtain ⟨d, hd⟩ := h
      cases j with
      | zero =>
        rw [Nat.cast_zero, sub_zero, hp] at hd
        cases hd
      | succ j =>
        rw [Nat.cast_succ, show p - ((j : Int) + 1) = p - 1 - j by omega] at hd
        obtain ⟨c, q, hq, hc, hgo⟩ := ih (Nat.lt_of_succ_lt_succ hj) ⟨d, hd⟩
        exact ⟨c, q, by omega, hc, hgo⟩

theorem two_pow_le_ten_pow {a b : Nat} (h : a ≤ 3 * b) : 2 ^ a ≤ 10 ^ b :=
  calc 2 ^ a ≤ 2 ^ (3 * b) := Nat.pow_le_pow_right two_pos h
    _ = (2 ^ 3) ^ b := Nat.pow_mul 2 3 b
    _ ≤ 10 ^ b := Nat.pow_le_pow_left (by decide) b

/-- No double is so small that its first digit is not among the first four hundred. -/
theorem around_den_le {m : Nat} {e : Int} (hm : 0 < m) (hleast : -1074 ≤ e) :
    (Interval.around m e).den ≤ (Interval.around m e).value * 10 ^ 400 := by
  obtain ⟨hden, hvalue⟩ := around_value m e
  have hden' : (0 : ℚ) < (Interval.around m e).den := Nat.cast_pos.2 hden
  have hpow := two_zpow_pos e
  have hm' : (1 : ℚ) ≤ m := Nat.one_le_cast.2 hm
  have hbig := two_pow_le_ten_pow (show 1074 ≤ 3 * 400 by decide)
  rw [div_eq_iff hden'.ne'] at hvalue
  -- The power is kept closed, or it would be multiplied out.
  generalize 10 ^ 400 = big at hbig ⊢
  have hbig' : (2 : ℚ) ^ (1074 : Int) ≤ big := by
    rw [show (1074 : Int) = (1074 : Nat) from rfl, zpow_natCast]
    exact_mod_cast hbig
  have hone : (1 : ℚ) ≤ 2 ^ e * big := by
    calc (1 : ℚ) = 2 ^ (-1074 : Int) * 2 ^ (1074 : Int) := by
          rw [← zpow_add₀ two_ne_zero]
          rfl
      _ ≤ 2 ^ e * big :=
          mul_le_mul (zpow_le_zpow_right₀ one_le_two hleast) hbig' (two_zpow_pos _).le hpow.le
  rw [← Nat.cast_le (α := ℚ), Nat.cast_mul, hvalue]
  calc ((Interval.around m e).den : ℚ) = 1 * (Interval.around m e).den * 1 := by ring
    _ ≤ m * (Interval.around m e).den * (2 ^ e * big) :=
        mul_le_mul (mul_le_mul_of_nonneg_right hm' hden'.le) hone zero_le_one (by positivity)
    _ = m * 2 ^ e * (Interval.around m e).den * big := by ring

/-- The interval around a double is wider than the grid of seventeen digits. -/
theorem exists_onGrid_seventeen {m : Nat} {e k : Int} (hm : 0 < m) (hlt : m < 2 * hiddenBit)
    (hk : (10 : ℚ) ^ (k - 1) ≤ m * 2 ^ e) :
    ∃ d, (Interval.around m e).onGrid (k - 1 - (16 : Nat)) = some d := by
  have hpow := two_zpow_pos e
  refine exists_onGrid hm ?_
  have hten : (10 : ℚ) ^ (k - 1 - (16 : Nat)) = 10 ^ (k - 1) / 10 ^ 16 := by
    rw [zpow_sub₀ (by norm_num), zpow_natCast]
  have hwide : (4 * m : ℚ) < (2 + below m e) * 10 ^ 16 := by
    have hlt' : (m : ℚ) < 9007199254740992 := by exact_mod_cast hlt
    unfold below
    split_ifs with h
    · rw [Bool.and_eq_true, decide_eq_true_eq] at h
      rw [h.1]
      norm_num [hiddenBit]
    · push_cast
      linarith
  rw [hten, div_lt_iff₀ (by norm_num)]
  calc (10 : ℚ) ^ (k - 1) ≤ 4 * m / 4 * 2 ^ e := by linarith
    _ < (2 + below m e) * 10 ^ 16 / 4 * 2 ^ e := by
        refine mul_lt_mul_of_pos_right ?_ hpow
        linarith
    _ = (2 + below m e) / 4 * 2 ^ e * 10 ^ 16 := by ring

/-- **The shortest digits of a double round to it**, and they are not many. -/
theorem shortest_near {m : Nat} {e : Int} (hm : 0 < m) (hlt : m < 2 * hiddenBit)
    (hleast : -1074 ≤ e) :
    Near m e ((shortest m e).1 * 10 ^ (shortest m e).2) ∧ (shortest m e).1 < 10 ^ 20 := by
  obtain ⟨hden, hvalue⟩ := around_value m e
  have hpow := two_zpow_pos e
  have hm' : (1 : ℚ) ≤ m := Nat.one_le_cast.2 hm
  obtain ⟨hk₁, hk₂⟩ := pointPosition_spec hden (around_den_le hm hleast)
  rw [hvalue] at hk₁ hk₂
  unfold shortest
  dsimp only
  rw [if_neg hm.ne']
  generalize pointPosition (Interval.around m e).value (Interval.around m e).den = k at *
  obtain ⟨d, q, hq, hd, hgo⟩ :=
    shortest_go_spec (show 16 < 18 by decide) (exists_onGrid_seventeen hm hlt hk₁)
  obtain ⟨hstrip, hle⟩ := stripZeros_spec 20 d q
  have hnear := near_of_onGrid hm hd
  rw [hgo, hstrip]
  refine ⟨hnear, hle.trans_lt ?_⟩
  -- The digits are few, since the grid is not much finer than that of seventeen digits.
  have hq' : (10 : ℚ) ^ (k - 18) ≤ 10 ^ q := zpow_le_zpow_right₀ (by norm_num) (by omega)
  have hd' : (d : ℚ) * 10 ^ (k - 18) < 2 * 10 ^ k := by
    have hupper := hnear.bounds.2.1
    have hd₀ : (0 : ℚ) ≤ d := d.cast_nonneg
    nlinarith
  rw [zpow_sub₀ (by norm_num), mul_div_assoc', div_lt_iff₀ (by norm_num)] at hd'
  have hk := ten_zpow_pos k
  have hlast : (d : ℚ) < 2 * 10 ^ (18 : Int) := by
    refine lt_of_mul_lt_mul_right ?_ hk.le
    linarith
  rw [← Nat.cast_lt (α := ℚ)]
  norm_num at hlast ⊢
  linarith

end Storyline.Number
