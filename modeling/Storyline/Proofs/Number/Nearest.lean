import Mathlib
import Storyline.Number.Shortest

/-!
# The double nearest to a quotient

Rounding finds the mantissa whose interval holds the quotient: whatever lies in the interval around
a double rounds to that double.

## Main definitions

* `Near`: whether a rational number rounds to a double

## Main results

* `floorLog2_spec`: the power of two below a quotient
* `roundHalfEven_eq`: rounding to the nearest natural
* `holds_iff`: the interval around a double, in rational numbers
* `nearestBits_of_near`: a quotient in the interval around a double rounds to it
-/

namespace Storyline.Number

/-! ## Powers of two -/

theorem two_zpow_pos (e : Int) : (0 : ℚ) < 2 ^ e :=
  zpow_pos two_pos e

/-- A scaled quotient is the quotient times a power of two. -/
theorem scaled_spec (num : Nat) {den : Nat} (hden : 0 < den) (e : Int) :
    0 < (scaled num den e).2 ∧
      ((scaled num den e).1 : ℚ) / (scaled num den e).2 = num / den * 2 ^ e := by
  unfold scaled
  by_cases he : 0 ≤ e
  · rw [if_pos he]
    refine ⟨hden, ?_⟩
    obtain ⟨k, rfl⟩ := Int.eq_ofNat_of_zero_le he
    simp only [Int.toNat_natCast, Nat.pow_eq, zpow_natCast]
    push_cast
    ring
  · rw [if_neg he]
    refine ⟨Nat.mul_pos hden (Nat.pow_pos two_pos), ?_⟩
    obtain ⟨k, hk⟩ := Int.eq_ofNat_of_zero_le (a := -e) (by omega)
    have hz : (2 : ℚ) ^ e = (2 ^ k)⁻¹ := by
      rw [← neg_neg e, hk, zpow_neg]
      rfl
    rw [hk, hz]
    simp only [Int.toNat_natCast, Nat.pow_eq]
    push_cast
    rw [div_mul_eq_div_div]
    ring

/-- A logarithm gives the power of two below a positive natural. -/
theorem two_zpow_log2 {n : Nat} (hn : 0 < n) :
    (2 : ℚ) ^ (n.log2 : Int) ≤ n ∧ (n : ℚ) < 2 ^ ((n.log2 : Int) + 1) := by
  constructor
  · rw [zpow_natCast]
    exact_mod_cast Nat.log2_self_le hn.ne'
  · rw [← Nat.cast_succ, zpow_natCast]
    exact_mod_cast Nat.lt_log2_self

/-- The highest power of two that is not above a positive quotient. -/
theorem floorLog2_spec {num den : Nat} (hnum : 0 < num) (hden : 0 < den) :
    (2 : ℚ) ^ floorLog2 num den ≤ num / den ∧
      (num : ℚ) / den < 2 ^ (floorLog2 num den + 1) := by
  obtain ⟨hn₁, hn₂⟩ := two_zpow_log2 hnum
  obtain ⟨hd₁, hd₂⟩ := two_zpow_log2 hden
  have hden' : (0 : ℚ) < den := Nat.cast_pos.2 hden
  obtain ⟨hp, hscaled⟩ := scaled_spec 1 one_pos ((num.log2 : Int) - den.log2)
  unfold floorLog2
  dsimp only
  generalize hk : (num.log2 : Int) - den.log2 = k at *
  generalize scaled 1 1 k = p at *
  have hp' : (0 : ℚ) < p.2 := Nat.cast_pos.2 hp
  have hpow : (p.1 : ℚ) = 2 ^ k * p.2 := by
    rw [← div_eq_iff hp'.ne', hscaled]
    simp
  -- The logarithms differ by the exponent or by one more, which one comparison tells apart.
  have htest : num * p.2 < den * p.1 ↔ (num : ℚ) / den < 2 ^ k := by
    rw [div_lt_iff₀ hden', ← mul_lt_mul_iff_left₀ hp', ← Nat.cast_lt (α := ℚ)]
    push_cast
    rw [hpow]
    ring_nf
  by_cases hlt : num * p.2 < den * p.1
  · rw [if_pos hlt, sub_add_cancel]
    refine ⟨?_, htest.1 hlt⟩
    rw [le_div_iff₀ hden']
    calc (2 : ℚ) ^ (k - 1) * den ≤ 2 ^ (k - 1) * 2 ^ ((den.log2 : Int) + 1) :=
          mul_le_mul_of_nonneg_left hd₂.le (two_zpow_pos _).le
      _ = 2 ^ (num.log2 : Int) := by
          rw [← zpow_add₀ two_ne_zero]
          congr 1
          omega
      _ ≤ num := hn₁
  · rw [if_neg hlt]
    refine ⟨not_lt.1 fun h => hlt (htest.2 h), ?_⟩
    rw [div_lt_iff₀ hden']
    calc (num : ℚ) < 2 ^ ((num.log2 : Int) + 1) := hn₂
      _ = 2 ^ (k + 1) * 2 ^ (den.log2 : Int) := by
          rw [← zpow_add₀ two_ne_zero]
          congr 1
          omega
      _ ≤ 2 ^ (k + 1) * den := mul_le_mul_of_nonneg_left hd₁ (two_zpow_pos _).le

/-- The highest power of two that is not above a quotient is the only one with the next above. -/
theorem floorLog2_eq {num den : Nat} (hnum : 0 < num) (hden : 0 < den) {k : Int}
    (hle : (2 : ℚ) ^ k ≤ num / den) (hlt : (num : ℚ) / den < 2 ^ (k + 1)) :
    floorLog2 num den = k := by
  obtain ⟨h₁, h₂⟩ := floorLog2_spec hnum hden
  have h₃ := (zpow_lt_zpow_iff_right₀ one_lt_two).1 (hle.trans_lt h₂)
  have h₄ := (zpow_lt_zpow_iff_right₀ one_lt_two).1 (h₁.trans_lt hlt)
  omega

/-! ## Rounding -/

/-- Rounding finds the natural that is nearer than a half, or the even one of two. -/
theorem roundHalfEven_eq {num den m : Nat} (hden : 0 < den)
    (hlow : 2 * m * den ≤ 2 * num + den) (hhigh : 2 * num ≤ 2 * m * den + den)
    (htie : m % 2 = 1 → 2 * m * den < 2 * num + den ∧ 2 * num < 2 * m * den + den) :
    roundHalfEven num den = m := by
  have hdiv := Nat.div_add_mod num den
  have hmod := Nat.mod_lt num hden
  unfold roundHalfEven
  dsimp only
  generalize num / den = q at *
  generalize num % den = r at *
  subst hdiv
  have hle : q ≤ m := by
    by_contra hlt
    have hmul : den * (m + 1) ≤ den * q := Nat.mul_le_mul_left den (not_le.1 hlt)
    nlinarith
  have hge : m ≤ q + 1 := by
    by_contra hlt
    have hmul : den * (q + 2) ≤ den * m := Nat.mul_le_mul_left den (not_le.1 hlt)
    nlinarith
  rcases Nat.eq_or_lt_of_le hle with rfl | hlt
  · -- rounded down, if need be as the even one of two
    have hr : 2 * r ≤ den := by nlinarith
    rcases Nat.lt_or_eq_of_le hr with hr | hr
    · rw [if_pos hr]
    · rw [if_neg (by omega), if_neg (by omega)]
      by_cases hq : q % 2 = 0
      · rw [if_pos hq]
      · have hstrict := (htie (by omega)).2
        nlinarith
  · -- rounded up, likewise
    obtain rfl : m = q + 1 := by omega
    have hr : den ≤ 2 * r := by nlinarith
    rcases Nat.lt_or_eq_of_le hr with hr | hr
    · rw [if_neg (by omega), if_pos hr]
    · rw [if_neg (by omega), if_neg (by omega)]
      by_cases hq : q % 2 = 0
      · have hstrict := (htie (by omega)).1
        nlinarith
      · rw [if_neg hq]

/-- A scaled quotient that is nearer than a half to a natural is rounded to it. -/
theorem roundHalfEven_scaled {n d m : Nat} (hd : 0 < d) {e : Int}
    (hlow : ((m : ℚ) - 1 / 2) * 2 ^ e ≤ n / d) (hhigh : (n : ℚ) / d ≤ (m + 1 / 2) * 2 ^ e)
    (htie : m % 2 = 1 → ((m : ℚ) - 1 / 2) * 2 ^ e < n / d ∧ (n : ℚ) / d < (m + 1 / 2) * 2 ^ e) :
    roundHalfEven (scaled n d (-e)).1 (scaled n d (-e)).2 = m := by
  obtain ⟨hp, hscaled⟩ := scaled_spec n hd (-e)
  generalize scaled n d (-e) = p at *
  have hp' : (0 : ℚ) < p.2 := Nat.cast_pos.2 hp
  have hpow := two_zpow_pos e
  have hq : (n : ℚ) / d * p.2 = p.1 * 2 ^ e := by
    rw [zpow_neg, ← div_eq_mul_inv, div_eq_div_iff hp'.ne' hpow.ne'] at hscaled
    exact hscaled.symm
  have hpos : 0 < p.2 * (2 : ℚ) ^ e := mul_pos hp' hpow
  -- Comparisons with the quotient are comparisons with the scaled one, without its denominator.
  have hleft (a : ℚ) : a * 2 ^ e ≤ n / d ↔ a * p.2 ≤ p.1 := by
    rw [← mul_le_mul_iff_left₀ hp', hq, mul_right_comm, mul_le_mul_iff_left₀ hpow]
  have hright (a : ℚ) : (n : ℚ) / d ≤ a * 2 ^ e ↔ (p.1 : ℚ) ≤ a * p.2 := by
    rw [← mul_le_mul_iff_left₀ hp', hq, mul_right_comm, mul_le_mul_iff_left₀ hpow]
  refine roundHalfEven_eq hp ?_ ?_ fun hm => ?_
  · have h := (hleft _).1 hlow
    rw [← Nat.cast_le (α := ℚ)]
    push_cast
    linarith
  · have h := (hright _).1 hhigh
    rw [← Nat.cast_le (α := ℚ)]
    push_cast
    linarith
  · have h₁ := (lt_iff_lt_of_le_iff_le (hright _)).1 (htie hm).1
    have h₂ := (lt_iff_lt_of_le_iff_le (hleft _)).1 (htie hm).2
    rw [← Nat.cast_lt (α := ℚ), ← Nat.cast_lt (α := ℚ)]
    push_cast
    constructor <;> linarith

/-! ## The interval around a double -/

/-- How far the interval around a double reaches down, in quarters of its last bit. -/
def below (m : Nat) (e : Int) : Nat :=
  if m = hiddenBit && -1074 < e then 1 else 2

theorem around_eq (m : Nat) (e : Int) : Interval.around m e =
    { low := (4 * m - below m e) * (scaled 1 4 e).1, value := 4 * m * (scaled 1 4 e).1,
      high := (4 * m + 2) * (scaled 1 4 e).1, den := (scaled 1 4 e).2,
      closed := m % 2 = 0 } := rfl

/-- Whether a rational number rounds to a double: it is in the interval around it, of which an even
mantissa closes both ends. -/
def Near (m : Nat) (e : Int) (q : ℚ) : Prop :=
  if m % 2 = 0 then (4 * m - below m e : ℚ) / 4 * 2 ^ e ≤ q ∧ q ≤ (4 * m + 2) / 4 * 2 ^ e
  else (4 * m - below m e : ℚ) / 4 * 2 ^ e < q ∧ q < (4 * m + 2) / 4 * 2 ^ e

/-- The interval around a double, in rational numbers. -/
theorem holds_iff {m : Nat} (hm : 0 < m) (e : Int) {n d : Nat} (hd : 0 < d) :
    (Interval.around m e).holds n d = true ↔ Near m e (n / d) := by
  unfold Near
  obtain ⟨hp, hscaled⟩ := scaled_spec 1 (show 0 < 4 by decide) e
  have hp' : (0 : ℚ) < (scaled 1 4 e).2 := Nat.cast_pos.2 hp
  have hd' : (0 : ℚ) < d := Nat.cast_pos.2 hd
  have hbelow : below m e ≤ 4 * m := by
    unfold below
    split <;> omega
  have hpow : ((scaled 1 4 e).1 : ℚ) = 2 ^ e / 4 * (scaled 1 4 e).2 := by
    rw [← div_eq_iff hp'.ne', hscaled]
    push_cast
    ring
  have hpos : (0 : ℚ) < (scaled 1 4 e).2 * d := mul_pos hp' hd'
  have hend (a : Nat) : ((a * (scaled 1 4 e).1 * d : Nat) : ℚ) =
      a / 4 * 2 ^ e * ((scaled 1 4 e).2 * d) := by
    push_cast
    rw [hpow]
    ring
  have hmid : ((n * (scaled 1 4 e).2 : Nat) : ℚ) = n / d * ((scaled 1 4 e).2 * d) := by
    push_cast
    field_simp
  -- Both ends are compared crosswise, so a common positive factor is cancelled.
  have hle (a : Nat) : (a * (scaled 1 4 e).1 * d ≤ n * (scaled 1 4 e).2 ↔
      (a : ℚ) / 4 * 2 ^ e ≤ n / d) := by
    rw [← Nat.cast_le (α := ℚ), hend, hmid, mul_le_mul_iff_left₀ hpos]
  have hge (a : Nat) : (n * (scaled 1 4 e).2 ≤ a * (scaled 1 4 e).1 * d ↔
      (n : ℚ) / d ≤ a / 4 * 2 ^ e) := by
    rw [← Nat.cast_le (α := ℚ), hend, hmid, mul_le_mul_iff_left₀ hpos]
  have hcast : ((4 * m - below m e : Nat) : ℚ) = 4 * m - below m e := by
    rw [Nat.cast_sub hbelow]
    push_cast
    rfl
  have hhigh : ((4 * m + 2 : Nat) : ℚ) = 4 * m + 2 := by
    push_cast
    rfl
  rw [← hcast, ← hhigh, around_eq, Interval.holds]
  by_cases hm₂ : m % 2 = 0
  · rw [if_pos hm₂, ← hle, ← hge, if_pos (decide_eq_true hm₂), Bool.and_eq_true,
      decide_eq_true_eq, decide_eq_true_eq]
  · rw [if_neg hm₂, ← lt_iff_lt_of_le_iff_le (hge _), ← lt_iff_lt_of_le_iff_le (hle _),
      if_neg (by rw [decide_eq_false hm₂]; exact Bool.false_ne_true), Bool.and_eq_true,
      decide_eq_true_eq, decide_eq_true_eq]

/-- What rounds to a double is nearer to it than half of the last bit, strictly so for an odd
mantissa; below a power of two it is nearer than a quarter. -/
theorem Near.bounds {m : Nat} {e : Int} {q : ℚ} (h : Near m e q) :
    (4 * m - below m e : ℚ) / 4 * 2 ^ e ≤ q ∧ q ≤ (m + 1 / 2) * 2 ^ e ∧
      (m % 2 = 1 → ((m : ℚ) - 1 / 2) * 2 ^ e < q ∧ q < (m + 1 / 2) * 2 ^ e) := by
  have hhalf : (4 * m + 2 : ℚ) / 4 = m + 1 / 2 := by ring
  rw [Near, hhalf] at h
  by_cases hm₂ : m % 2 = 0
  · rw [if_pos hm₂] at h
    exact ⟨h.1, h.2, fun hodd => absurd hodd (by omega)⟩
  · rw [if_neg hm₂] at h
    have hbelow : below m e = 2 := by
      unfold below hiddenBit
      rw [if_neg]
      rw [Bool.and_eq_true, decide_eq_true_eq]
      omega
    refine ⟨h.1.le, h.2.le, fun _ => ⟨?_, h.2⟩⟩
    rw [hbelow] at h
    calc ((m : ℚ) - 1 / 2) * 2 ^ e = (4 * m - (2 : Nat)) / 4 * 2 ^ e := by push_cast; ring
      _ < q := h.1

theorem nearestBits_eq {n d m : Nat} {e : Int} (hmost : floorLog2 n d < 1024)
    (he : max (floorLog2 n d - 52) (-1074) = e)
    (hround : roundHalfEven (scaled n d (-e)).1 (scaled n d (-e)).2 = m) :
    nearestBits n d = min ((e + 1074).toNat * hiddenBit + m) (2047 * hiddenBit) := by
  unfold nearestBits
  dsimp only
  rw [if_neg (not_le.2 hmost), he, hround]

/-- Right below a power of two quotients are rounded on a grid that is twice as fine; those nearer
than a quarter of the last bit are rounded up to the power. -/
theorem nearestBits_below {e : Int} (hleast : -1074 < e) (hmost : e ≤ 971) {n d : Nat}
    (hn : 0 < n) (hd : 0 < d) (hquarter : ((hiddenBit : ℚ) - 1 / 4) * 2 ^ e ≤ n / d)
    (hless : (n : ℚ) / d < hiddenBit * 2 ^ e) :
    nearestBits n d = (e + 1074).toNat * hiddenBit + hiddenBit := by
  have hpow := two_zpow_pos e
  have h51 : (2 : ℚ) ^ (51 : Int) = hiddenBit / 2 := by norm_num [hiddenBit]
  have h52 : (2 : ℚ) ^ (52 : Int) = hiddenBit := by norm_num [hiddenBit]
  have hH : (1 : ℚ) ≤ hiddenBit := by norm_num [hiddenBit]
  have hfloor : floorLog2 n d = 51 + e := by
    refine floorLog2_eq hn hd ?_ ?_
    · rw [zpow_add₀ two_ne_zero, h51]
      exact (mul_le_mul_of_nonneg_right (by linarith) hpow.le).trans hquarter
    · rw [show 51 + e + 1 = 52 + e by omega, zpow_add₀ two_ne_zero, h52]
      exact hless
  have hprev : (2 : ℚ) ^ e = 2 * 2 ^ (e - 1) := by
    rw [← zpow_one_add₀ two_ne_zero]
    congr 1
    omega
  -- On the finer grid the power of two is an even point, which even a tie is rounded to.
  have hround : roundHalfEven (scaled n d (-(e - 1))).1 (scaled n d (-(e - 1))).2 =
      2 * hiddenBit := by
    have hpow' := two_zpow_pos (e - 1)
    rw [hprev] at hquarter hless
    refine roundHalfEven_scaled hd ?_ ?_ fun hodd => absurd hodd (by omega)
    · push_cast
      linarith
    · push_cast
      linarith
  rw [nearestBits_eq (by omega) (by omega) hround]
  unfold hiddenBit
  omega

/-- **A quotient in the interval around a double rounds to it.** -/
theorem nearestBits_of_near {m : Nat} {e : Int} (hm : 0 < m) (hlt : m < 2 * hiddenBit)
    (hleast : -1074 ≤ e) (hmost : e ≤ 971) (hhidden : e = -1074 ∨ hiddenBit ≤ m) {n d : Nat}
    (hd : 0 < d) (h : Near m e (n / d)) :
    0 < n ∧ nearestBits n d = (e + 1074).toNat * hiddenBit + m := by
  obtain ⟨hlow, hhigh, htie⟩ := h.bounds
  have hpow := two_zpow_pos e
  have hm' : (1 : ℚ) ≤ m := Nat.one_le_cast.2 hm
  have hbelow : (below m e : ℚ) ≤ 2 := by
    unfold below
    split <;> norm_num
  have hhalf : ((m : ℚ) - 1 / 2) * 2 ^ e ≤ n / d := by nlinarith
  have hquotient : (0 : ℚ) < n / d := by nlinarith
  have hn : 0 < n := by
    rcases Nat.eq_zero_or_pos n with rfl | hn
    · simp at hquotient
    · exact hn
  have h52 : (2 : ℚ) ^ (52 : Int) = hiddenBit := by norm_num [hiddenBit]
  have h53 : (2 : ℚ) ^ (53 : Int) = 2 * hiddenBit := by norm_num [hiddenBit]
  have hH : (1 : ℚ) ≤ hiddenBit := by norm_num [hiddenBit]
  have htop : (n : ℚ) / d < 2 ^ (53 + e) := by
    have hm₂ : (m : ℚ) + 1 ≤ 2 * hiddenBit := by exact_mod_cast hlt
    rw [zpow_add₀ two_ne_zero, h53]
    nlinarith
  obtain ⟨hfloor₁, hfloor₂⟩ := floorLog2_spec hn hd
  have hfloor : floorLog2 n d < 53 + e :=
    (zpow_lt_zpow_iff_right₀ one_lt_two).1 (hfloor₁.trans_lt htop)
  refine ⟨hn, ?_⟩
  by_cases hexp : max (floorLog2 n d - 52) (-1074) = e
  · have hmin : (e + 1074).toNat * hiddenBit + m ≤ 2047 * hiddenBit := by
      unfold hiddenBit at hlt ⊢
      omega
    rw [nearestBits_eq (by omega) hexp (roundHalfEven_scaled hd hhalf hhigh htie),
      min_eq_left hmin]
  · -- Only the numbers right below a power of two are rounded on the finer grid.
    have hless : (n : ℚ) / d < hiddenBit * 2 ^ e := by
      rw [← h52, ← zpow_add₀ two_ne_zero]
      exact hfloor₂.trans_le (zpow_le_zpow_right₀ one_le_two (by omega))
    have hmH : m = hiddenBit := by
      refine le_antisymm (not_lt.1 fun hgt => ?_) (by omega)
      have hgt' : (hiddenBit : ℚ) + 1 ≤ m := by exact_mod_cast hgt
      nlinarith
    subst hmH
    have hone : below hiddenBit e = 1 := by
      unfold below
      rw [if_pos]
      rw [Bool.and_eq_true, decide_eq_true_eq, decide_eq_true_eq]
      omega
    have hquarter : ((hiddenBit : ℚ) - 1 / 4) * 2 ^ e ≤ n / d := by
      rw [hone] at hlow
      calc ((hiddenBit : ℚ) - 1 / 4) * 2 ^ e = (4 * hiddenBit - (1 : Nat)) / 4 * 2 ^ e := by
            push_cast; ring
        _ ≤ n / d := hlow
    exact nearestBits_below (by omega) hmost hn hd hquarter hless

end Storyline.Number
