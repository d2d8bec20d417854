import Mathlib
import Storyline.Number.Binary

/-!
# Doubles and their bits

A double is told by its bits, of which the highest is the sign, the next eleven the exponent and
the others the fraction. Putting the three parts of some bits together gives the bits, so a double
is made again from its bits, and the opposite of a double differs in the sign alone.

## Main results

* `ofBits_toBits`: a double is made from its bits
* `toBits_ofBits`: bits that are no `NaN` are those of a double
* `neg_ofNat`: the opposite of a double that is not negative
* `eq_ofBits_of_form`: a finite double from sign, mantissa and exponent
-/

namespace Storyline.Number

open Float.Model (Format)
open Float.Model.UnpackedFloat

/-! ## The parts of bits -/

section

variable (b : BitVec 64)

theorem toNat_unpackMantissa : (@unpackMantissa Format.binary64 b).toNat = b.toNat % 2 ^ 52 := by
  simp [unpackMantissa, BitVec.extractLsb]

theorem toNat_unpackExponent :
    (@unpackExponent Format.binary64 b).toNat = b.toNat / 2 ^ 52 % 2 ^ 11 := by
  simp [unpackExponent, BitVec.extractLsb, Nat.shiftRight_eq_div_pow]

theorem toNat_unpackSign : (@unpackSign Format.binary64 b).toNat = b.toNat / 2 ^ 63 := by
  have hb := b.isLt
  simp only [unpackSign, BitVec.extractLsb, BitVec.toNat_cast, BitVec.extractLsb'_toNat,
    Nat.shiftRight_eq_div_pow]
  omega

theorem toNat_packComponents (s : Sign) (e : BitVec 11) (m : BitVec 52) :
    (packComponents Format.binary64 s e m).toNat =
      s.toBitVec.toNat * 2 ^ 63 + e.toNat * 2 ^ 52 + m.toNat := by
  unfold packComponents
  simp only [BitVec.toNat_append]
  rw [← Nat.shiftLeft_add_eq_or_of_lt m.isLt, ← Nat.shiftLeft_add_eq_or_of_lt e.isLt]
  simp only [Nat.shiftLeft_eq]
  omega

theorem toBitVec_ofBitVec (c : BitVec 1) : (Sign.ofBitVec c).toBitVec = c := by
  revert c
  decide

/-- The parts of bits, put together, are the bits. -/
theorem packComponents_unpack :
    packComponents Format.binary64 (Sign.ofBitVec (@unpackSign Format.binary64 b))
      (@unpackExponent Format.binary64 b) (@unpackMantissa Format.binary64 b) = b := by
  apply BitVec.eq_of_toNat_eq
  rw [toNat_packComponents, toBitVec_ofBitVec, toNat_unpackSign, toNat_unpackExponent,
    toNat_unpackMantissa]
  omega

/-- The value of a number whose exponent is zero has no hidden bit. -/
theorem pack_subnormal (s : Sign) {m : BitVec 52} (hm : 0 < m.toNat) :
    pack Format.binary64 (.finite s m.toNat (-1074) hm) = packComponents Format.binary64 s 0 m := by
  have hlog : m.toNat.log2 < 52 := (Nat.log2_lt hm.ne').2 m.isLt
  unfold pack
  dsimp only
  rw [if_neg, if_neg]
  · rw [BitVec.ofNat_toNat, BitVec.setWidth_eq]
    rfl
  · simp only [Format.mantissaBits]
    omega
  · simp only [Format.exponentBias]
    decide

theorem pack_normal (s : Sign) {e : BitVec 11} {m : BitVec 52} (he : e.toNat < 2047) {v : Nat}
    (hv : 0 < v) (hvm : v = 2 ^ 52 + m.toNat) :
    pack Format.binary64 (.finite s v (e.toNat - 1075) hv) =
      packComponents Format.binary64 s e m := by
  have hlt : m.toNat < 2 ^ 52 := m.isLt
  have hlog : v.log2 = 52 := by
    rw [Nat.log2_eq_iff (by omega)]
    omega
  have hbiased : ((e.toNat : Int) - 1075 + (1023 : Nat) + (52 : Nat)).toNat = e.toNat := by omega
  unfold pack
  dsimp only [Format.exponentBias, Nat.reduceSub, Nat.reducePow]
  rw [hbiased, if_neg (by omega), hlog,
    if_pos (show 52 + 1 = Format.binary64.mantissaBits from rfl), BitVec.ofNat_toNat,
    BitVec.setWidth_eq]
  congr 1
  apply BitVec.eq_of_toNat_eq
  rw [BitVec.toNat_ofNat, hvm]
  omega

/-- Bits that are no `NaN` stand for a number that is told by its sign and the two other parts. -/
theorem exists_unpack (hnan : @unpackExponent Format.binary64 b = -1#11 →
    @unpackMantissa Format.binary64 b = 0#52) :
    ∃ u : Sign → Float.Model.UnpackedFloat,
      unpack Format.binary64 b = u (Sign.ofBitVec (@unpackSign Format.binary64 b)) ∧
      (∀ s, (u s).neg = u (-s)) ∧
      ∀ s, pack Format.binary64 (u s) = packComponents Format.binary64 s
        (@unpackExponent Format.binary64 b) (@unpackMantissa Format.binary64 b) := by
  unfold unpack
  dsimp only
  by_cases he : @unpackExponent Format.binary64 b = -1#11
  · -- an infinity
    rw [if_pos he, if_pos (hnan he)]
    refine ⟨.infinity, rfl, fun _ => rfl, fun s => ?_⟩
    rw [he, hnan he]
    rfl
  · rw [if_neg he]
    by_cases hzero : @unpackExponent Format.binary64 b = 0#11
    · rw [if_pos hzero]
      by_cases hm : @unpackMantissa Format.binary64 b = 0#52
      · -- zero
        rw [dif_pos hm]
        refine ⟨.zero, rfl, fun _ => rfl, fun s => ?_⟩
        rw [hzero, hm]
        rfl
      · -- a number without the hidden bit
        rw [dif_neg hm]
        refine ⟨fun s => .finite s _ _ _, rfl, fun _ => rfl, fun s => ?_⟩
        rw [hzero]
        exact pack_subnormal s _
    · -- a number with the hidden bit
      rw [if_neg hzero]
      refine ⟨fun s => .finite s _ _ _, rfl, fun _ => rfl, fun s => ?_⟩
      have hlt : (@unpackMantissa Format.binary64 b).toNat < 2 ^ 52 := BitVec.isLt _
      have hexp : (@unpackExponent Format.binary64 b).toNat < 2048 := BitVec.isLt _
      have hones : (@unpackExponent Format.binary64 b).toNat ≠ 2047 := fun hc =>
        he (BitVec.eq_of_toNat_eq (hc.trans rfl))
      refine pack_normal s (by omega) _ ?_
      rw [BitVec.toNat_append, ← Nat.shiftLeft_add_eq_or_of_lt hlt]
      rfl

/-- Bits that are no `NaN`, or the only one, are made again from what they stand for. -/
theorem pack_unpack (h : Format.binary64.Valid b) :
    pack Format.binary64 (unpack Format.binary64 b) = b := by
  by_cases hnan : @unpackExponent Format.binary64 b = -1#11 ∧
      @unpackMantissa Format.binary64 b ≠ 0#52
  · unfold unpack
    dsimp only
    rw [if_pos hnan.1, if_neg hnan.2]
    exact (h.eq_packedNaN hnan.1 hnan.2).symm
  · obtain ⟨u, hu, -, hpack⟩ := exists_unpack b fun he => by_contra fun hm => hnan ⟨he, hm⟩
    rw [hu, hpack, packComponents_unpack]

end

/-! ## Doubles -/

theorem ofBits_eq (b : UInt64) :
    Float.ofBits b = .ofModel (.pack (unpack Format.binary64 b.toBitVec)) := rfl

/-- A double is made from its bits. -/
theorem ofBits_toBits (x : Float) : Float.ofBits x.toBits = x := by
  obtain ⟨bits, hvalid⟩ := x
  rw [ofBits_eq]
  congr 1
  unfold Float.Model.pack Float.toBits
  congr 1
  rw [pack_unpack _ hvalid]

theorem ext_toBits {x y : Float} (h : x.toBits = y.toBits) : x = y := by
  rw [← ofBits_toBits x, h, ofBits_toBits]

/-- Bits that are no `NaN` have an exponent that is not full, or no fraction. -/
theorem unpackMantissa_eq_zero {b : BitVec 64} (h : b.toNat % 2 ^ 63 ≤ 2047 * 2 ^ 52)
    (he : @unpackExponent Format.binary64 b = -1#11) :
    @unpackMantissa Format.binary64 b = 0#52 := by
  apply BitVec.eq_of_toNat_eq
  have hexp := congrArg BitVec.toNat he
  rw [toNat_unpackExponent] at hexp
  rw [toNat_unpackMantissa]
  change _ = 2047 at hexp
  change _ = 0
  omega

/-- Bits that are no `NaN` are those of a double. -/
theorem toBits_ofBits {b : UInt64} (h : b.toNat % 2 ^ 63 ≤ 2047 * 2 ^ 52) :
    (Float.ofBits b).toBits = b := by
  obtain ⟨u, hu, -, hpack⟩ := exists_unpack b.toBitVec (unpackMantissa_eq_zero h)
  change UInt64.ofBitVec (pack Format.binary64 (unpack Format.binary64 b.toBitVec)) = b
  rw [hu, hpack, packComponents_unpack]

theorem neg_toBitVec_ofBitVec (c : BitVec 1) :
    (-Sign.ofBitVec c).toBitVec.toNat = 1 - c.toNat := by
  revert c
  decide

/-- The opposite of a double that is not negative has the sign and else the same bits. -/
theorem neg_ofNat {n : Nat} (h : n ≤ 2047 * 2 ^ 52) :
    -Float.ofBits (UInt64.ofNat n) = Float.ofBits (UInt64.ofNat (2 ^ 63 + n)) := by
  have hn : (UInt64.ofNat n).toNat = n := UInt64.toNat_ofNat_of_lt' (by rw [UInt64.size]; omega)
  have hneg : (UInt64.ofNat (2 ^ 63 + n)).toNat = 2 ^ 63 + n :=
    UInt64.toNat_ofNat_of_lt' (by rw [UInt64.size]; omega)
  obtain ⟨u, hu, hopp, hpack⟩ := exists_unpack (UInt64.ofNat n).toBitVec
    (unpackMantissa_eq_zero (by rw [UInt64.toNat_toBitVec, hn]; omega))
  apply ext_toBits
  rw [toBits_ofBits (by rw [hneg]; omega)]
  -- Both packings meet the bits again, so that only the sign is left to compare.
  change UInt64.ofBitVec (pack Format.binary64
    (unpack Format.binary64 (pack Format.binary64 (unpack Format.binary64 _))).neg) = _
  rw [hu, hpack, packComponents_unpack, hu, hopp, hpack]
  apply UInt64.toNat.inj
  rw [hneg, UInt64.toNat_ofBitVec, toNat_packComponents, neg_toBitVec_ofBitVec, toNat_unpackSign,
    toNat_unpackExponent, toNat_unpackMantissa, UInt64.toNat_toBitVec, hn]
  omega

/-! ## The exact value of a double -/

/-- The bits of a finite double of some sign. -/
def bitsOf (negative : Bool) (m : Nat) (e : Int) : Nat :=
  (if negative then signBit else 0) + ((e + 1074).toNat * hiddenBit + m)

/-- A finite double is made from its sign, mantissa and exponent. The mantissa has the hidden bit
unless the exponent is least. -/
theorem eq_ofBits_of_form {x : Float} {negative : Bool} {m : Nat} {e : Int}
    (h : form x = .finite negative m e) :
    x = Float.ofBits (UInt64.ofNat (bitsOf negative m e)) ∧ m < 2 * hiddenBit ∧ -1074 ≤ e ∧
      e ≤ 971 ∧ (e = -1074 ∨ hiddenBit ≤ m) := by
  have hlt : x.toBits.toNat < 2 ^ 64 := x.toBits.toNat_lt
  have hx : x = Float.ofBits (UInt64.ofNat x.toBits.toNat) := by
    rw [UInt64.ofNat_toNat, ofBits_toBits]
  unfold form at h
  dsimp only at h
  generalize x.toBits.toNat = b at h hlt hx
  -- The form leaves the sign apart; the other 63 bits are exponent and fraction.
  have hbits : b = (if (decide (signBit ≤ b)) = true then signBit else 0) + b % signBit := by
    by_cases hsign : signBit ≤ b
    · rw [decide_eq_true hsign, if_pos rfl]
      unfold signBit at hsign ⊢
      omega
    · rw [decide_eq_false hsign, if_neg Bool.false_ne_true]
      unfold signBit at hsign ⊢
      omega
  by_cases hfull : b / hiddenBit % 2048 = 2047
  · rw [if_pos hfull] at h
    split at h <;> cases h
  · rw [if_neg hfull] at h
    by_cases hleast : b / hiddenBit % 2048 = 0
    · rw [if_pos hleast] at h
      cases h
      have hzero : (-1074 + 1074 : Int).toNat * hiddenBit = 0 := rfl
      unfold hiddenBit at hfull hleast ⊢
      refine ⟨?_, by omega, le_rfl, by omega, .inl rfl⟩
      rw [bitsOf, hzero, Nat.zero_add, show b % 4503599627370496 = b % signBit by
        unfold signBit; omega, ← hbits]
      exact hx
    · rw [if_neg hleast] at h
      cases h
      unfold hiddenBit at hleast hfull ⊢
      refine ⟨?_, by omega, by omega, by omega, .inr (by omega)⟩
      rw [bitsOf, show ((b / 4503599627370496 % 2048 : Nat) - 1075 + 1074 : Int).toNat * hiddenBit +
        (4503599627370496 + b % 4503599627370496) = b % signBit by
          unfold signBit hiddenBit; omega, ← hbits]
      exact hx

/-- There is one value that is no number. -/
theorem eq_notANumber_of_form {x : Float} (h : form x = .nan) : x = notANumber := by
  unfold form at h
  dsimp only at h
  by_cases hfull : x.toBits.toNat / hiddenBit % 2048 = 2047
  · rw [if_pos hfull] at h
    by_cases hfraction : x.toBits.toNat % hiddenBit = 0
    · rw [if_pos hfraction] at h
      cases h
    · unfold hiddenBit at hfull hfraction
      have hnan := x.toModel.valid.eq_packedNaN
        (BitVec.eq_of_toNat_eq ((toNat_unpackExponent _).trans hfull)) fun hzero =>
          hfraction ((toNat_unpackMantissa _).symm.trans (congrArg BitVec.toNat hzero))
      apply ext_toBits
      rw [notANumber, ← UInt64.toBitVec_inj]
      exact hnan
  · rw [if_neg hfull] at h
    split at h <;> cases h

/-- There are two infinities. -/
theorem eq_infinity_of_form {x : Float} {negative : Bool} (h : form x = .infinite negative) :
    x = if negative then negativeInfinity else infinity := by
  have hlt : x.toBits.toNat < 2 ^ 64 := x.toBits.toNat_lt
  have hx : x = Float.ofBits (UInt64.ofNat x.toBits.toNat) := by
    rw [UInt64.ofNat_toNat, ofBits_toBits]
  unfold form at h
  dsimp only at h
  generalize x.toBits.toNat = b at h hlt hx
  by_cases hfull : b / hiddenBit % 2048 = 2047
  · rw [if_pos hfull] at h
    by_cases hfraction : b % hiddenBit = 0
    · rw [if_pos hfraction] at h
      cases h
      unfold hiddenBit at hfull hfraction
      by_cases hsign : signBit ≤ b
      · rw [if_pos (decide_eq_true hsign), hx, negativeInfinity]
        unfold signBit at hsign
        rw [show b = 0xFFF0000000000000 by omega]
        rfl
      · rw [if_neg (by rw [decide_eq_false hsign]; exact Bool.false_ne_true), hx, infinity]
        unfold signBit at hsign
        rw [show b = 0x7FF0000000000000 by omega]
        rfl
    · rw [if_neg hfraction] at h
      cases h
  · rw [if_neg hfull] at h
    split at h <;> cases h

theorem neg_infinity : -infinity = negativeInfinity :=
  neg_ofNat le_rfl

end Storyline.Number
