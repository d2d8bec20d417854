import Storyline.Number.Literal
import Storyline.Proofs.Number.Bits
import Storyline.Proofs.Number.Shortest
import Storyline.Proofs.Text.Trim

/-!
# Integers within the range of doubles

Integers are unbounded, doubles are not. An integer is rounded to a double if it lies below the
point halfway between the largest double and the next power of two; from there on it has none. Every
integer that is a double can be written, since its digits are far from too many.

## Main definitions

* `floatBound`: the least natural that has no double
* `Moderate`, `ModerateLiteral`: numbers with a double, and texts that spell no other

## Main results

* `roundHalfEven_lt_iff`: which quotients are rounded to less than an even natural
* `nearestBits_lt_iff`: which naturals are rounded to a finite double
* `exists_floatOfInt_iff`, `exists_toFloat_iff`: which numbers have a double
* `exists_writeInt_iff`: which integers can be written
* `exists_writeInt_of_toInt?`: an integer that is a double can be written
* `moderateLiteral_of_length`: short texts spell moderate numbers
-/

namespace Storyline.Number

/-- The least natural without a double: halfway between the largest double and the next power of
two. -/
def floatBound : Nat :=
  Nat.pow 2 1024 - Nat.pow 2 970

/-- A power of two among the others. -/
theorem exists_eq_natPow (m : Nat) : ∃ p, p = Nat.pow 2 m ∧
    (∀ j k, k ≤ m + j → Nat.pow 2 k ≤ 2 ^ j * p) ∧ ∀ j k, m + j ≤ k → 2 ^ j * p ≤ Nat.pow 2 k := by
  have hadd (j : Nat) : 2 ^ j * Nat.pow 2 m = Nat.pow 2 (m + j) :=
    (Nat.mul_comm _ _).trans (Nat.pow_add 2 m j).symm
  refine ⟨Nat.pow 2 m, rfl, fun j k hk => ?_, fun j k hk => ?_⟩
  · rw [hadd]
    exact Nat.pow_le_pow_right two_pos hk
  · rw [hadd]
    exact Nat.pow_le_pow_right two_pos hk

/-- The bound among the powers of two and below the integers that are too long, in terms of half the
weight `2 * p` of the last bit of the largest doubles. -/
theorem exists_floatBound_eq : ∃ p, floatBound = (2 ^ 54 - 1) * p ∧ 0 < p ∧
    2 ^ 54 * p ≤ 10 ^ digitLimit ∧ (∀ j k, k ≤ 970 + j → Nat.pow 2 k ≤ 2 ^ j * p) ∧
    ∀ j k, 970 + j ≤ k → 2 ^ j * p ≤ Nat.pow 2 k := by
  obtain ⟨p, hp, hle, hge⟩ := exists_eq_natPow 970
  refine ⟨p, ?_, ?_, ?_, hle, hge⟩
  · rewrite [hp]
    decide +kernel
  · rewrite [hp]
    decide +kernel
  · rewrite [hp]
    decide +kernel

/-! ## Rounding -/

/-- A quotient is rounded to less than an even natural if it is nearer than a half to the one
before, since a tie goes to the even one. -/
theorem roundHalfEven_lt_iff {num den m : Nat} (hden : 0 < den) (hm : 0 < m) (heven : m % 2 = 0) :
    roundHalfEven num den < m ↔ 2 * num < (2 * m - 1) * den := by
  have hdiv := Nat.div_add_mod num den
  have hmod := Nat.mod_lt num hden
  unfold roundHalfEven
  dsimp only
  generalize num / den = q at *
  generalize num % den = r at *
  subst hdiv
  obtain ⟨k, rfl⟩ : ∃ k, m = k + 1 := ⟨m - 1, by omega⟩
  have hodd : 2 * (k + 1) - 1 = 2 * k + 1 := by omega
  rw [hodd]
  rcases Nat.lt_trichotomy q k with hlt | rfl | hlt
  · have hmul : den * (q + 1) ≤ den * k := Nat.mul_le_mul_left den hlt
    refine iff_of_true ?_ (by nlinarith)
    split_ifs <;> omega
  · -- Halfway between the two the even one is taken, which is not the one before.
    have hhalf : 2 * (den * q + r) < (2 * q + 1) * den ↔ 2 * r < den := by
      constructor <;> intro h <;> nlinarith
    rw [hhalf]
    split_ifs <;> omega
  · have hmul : den * (k + 1) ≤ den * q := Nat.mul_le_mul_left den hlt
    refine iff_of_false ?_ (by nlinarith)
    split_ifs <;> omega

theorem scaled_neg (num den : Nat) {k w : Nat} (hk : 0 < k) (hw : Nat.pow 2 k = w) :
    scaled num den (-k) = (num, den * w) := by
  rw [scaled, if_neg (by omega), Int.neg_neg, Int.toNat_natCast, hw]

/-- The quotient of a natural by the weight of the last bit of its mantissa. -/
theorem scaled_lt {n : Nat} {k : Int} (hn : (n : ℚ) < 2 ^ (k + 1)) :
    0 < (scaled n 1 (52 - k)).2 ∧ (scaled n 1 (52 - k)).1 < 2 ^ 53 * (scaled n 1 (52 - k)).2 := by
  obtain ⟨hden, hquotient⟩ := scaled_spec n one_pos (52 - k)
  refine ⟨hden, ?_⟩
  have hden' : (0 : ℚ) < (scaled n 1 (52 - k)).2 := Nat.cast_pos.2 hden
  have hpow := two_zpow_pos (52 - k)
  have hlt : ((scaled n 1 (52 - k)).1 : ℚ) / (scaled n 1 (52 - k)).2 < 2 ^ (53 : Int) := by
    rw [hquotient, Nat.cast_one, div_one]
    calc (n : ℚ) * 2 ^ (52 - k) < 2 ^ (k + 1) * 2 ^ (52 - k) := mul_lt_mul_of_pos_right hn hpow
      _ = 2 ^ (53 : Int) := by
        rw [← zpow_add₀ two_ne_zero]
        congr 1
        omega
  rw [div_lt_iff₀ hden'] at hlt
  exact_mod_cast hlt

theorem floorLog2_nat {n : Nat} (hn : 0 < n) : floorLog2 n 1 = n.log2 := by
  obtain ⟨hle, hlt⟩ := two_zpow_log2 hn
  refine floorLog2_eq hn one_pos ?_ ?_
  · rwa [Nat.cast_one, div_one]
  · rwa [Nat.cast_one, div_one]

/-- The bits of a natural below the next power of two after the doubles: its mantissa is rounded to
fifty-three bits. -/
theorem nearestBits_nat {n : Nat} (hn : 0 < n) (hlog : n.log2 < 1024) :
    nearestBits n 1 = min ((n.log2 + 1022) * hiddenBit +
      roundHalfEven (scaled n 1 (52 - n.log2)).1 (scaled n 1 (52 - n.log2)).2)
      (2047 * hiddenBit) := by
  have hfloor := floorLog2_nat hn
  have hexponent : -((n.log2 : Int) - 52) = 52 - n.log2 := by omega
  have hweight : ((n.log2 : Int) - 52 + 1074).toNat = n.log2 + 1022 := by omega
  rw [nearestBits_eq (e := (n.log2 : Int) - 52) (by omega) (by omega) rfl, hexponent, hweight]

/-- Exactly the naturals below the bound are rounded to a finite double. -/
theorem nearestBits_lt_iff {n : Nat} (hn : 0 < n) :
    nearestBits n 1 < 2047 * hiddenBit ↔ n < floatBound := by
  obtain ⟨p, hbound, hp, -, hbelow, habove⟩ := exists_floatBound_eq
  have hle : Nat.pow 2 n.log2 ≤ n := Nat.log2_self_le hn.ne'
  have hlt : n < Nat.pow 2 (n.log2 + 1) := Nat.lt_log2_self
  rw [hbound]
  rcases Nat.lt_trichotomy n.log2 1023 with hlog | hlog | hlog
  · -- Below the last power of two even a mantissa that is rounded up to the next stays finite.
    obtain ⟨hden, hnum⟩ := scaled_lt (two_zpow_log2 hn).2
    have hround := (roundHalfEven_lt_iff hden (show 0 < 2 ^ 53 + 2 by decide) (by decide)).2
      (show 2 * (scaled n 1 (52 - n.log2)).1 < _ by omega)
    have hpow := hbelow 53 (n.log2 + 1) (by omega)
    rw [nearestBits_nat hn (by omega)]
    refine iff_of_true ?_ (by omega)
    unfold hiddenBit
    omega
  · have hround := @roundHalfEven_lt_iff n (2 * p) (2 ^ 53) (by omega) (by decide) (by decide)
    obtain ⟨k, hk⟩ : ∃ k, k = 970 + 1 := ⟨_, rfl⟩
    have hexponent : 52 - (n.log2 : Int) = -(k : Nat) := by omega
    have hweight : Nat.pow 2 k = 2 * p := Nat.le_antisymm (hbelow 1 k hk.le) (habove 1 k hk.ge)
    rw [nearestBits_nat hn (by omega), hexponent, scaled_neg n 1 (by omega) hweight, Nat.one_mul,
      hlog]
    dsimp only
    unfold hiddenBit
    omega
  · have hfloor : ¬ floorLog2 n 1 < 1024 := by
      rw [floorLog2_nat hn]
      omega
    have hpow := habove 54 n.log2 (by omega)
    rw [nearestBits]
    dsimp only
    rw [if_pos (not_lt.1 hfloor)]
    exact iff_of_false (Nat.lt_irrefl _) (by omega)

theorem nearestBits_le (num den : Nat) : nearestBits num den ≤ 2047 * hiddenBit := by
  unfold nearestBits
  dsimp only
  split
  · exact Nat.le_refl _
  · exact Nat.min_le_right _ _

/-! ## Integers as doubles -/

/-- The bits of a double with a sign. -/
def withSign (negative : Bool) (bits : Nat) : Nat :=
  if negative then signBit + bits else bits

/-- Exactly the doubles whose exponent is not full are finite. -/
theorem exists_finite_iff (negative : Bool) {bits : Nat} (hbits : bits ≤ 2047 * hiddenBit) :
    (∃ s m e, form (Float.ofBits (UInt64.ofNat (withSign negative bits))) = .finite s m e) ↔
      bits < 2047 * hiddenBit := by
  have hlt : withSign negative bits < 2 ^ 64 ∧ withSign negative bits % 2 ^ 63 = bits ∧
      withSign negative bits / hiddenBit % 2048 = bits / hiddenBit := by
    unfold hiddenBit at hbits ⊢
    cases negative <;> simp only [withSign, signBit, if_true, if_false, Bool.false_eq_true] <;>
      omega
  obtain ⟨hlt, hmod, hexponent⟩ := hlt
  have htoNat : (UInt64.ofNat (withSign negative bits)).toNat = withSign negative bits :=
    UInt64.toNat_ofNat_of_lt' hlt
  unfold form
  dsimp only
  rw [toBits_ofBits (by rw [htoNat, hmod]; exact hbits), htoNat, hexponent]
  by_cases hfinite : bits < 2047 * hiddenBit
  · rw [if_neg (by unfold hiddenBit at hfinite ⊢; omega)]
    refine iff_of_true ?_ hfinite
    split
    · exact ⟨_, _, _, rfl⟩
    · exact ⟨_, _, _, rfl⟩
  · rw [if_pos (by unfold hiddenBit at hbits hfinite ⊢; omega)]
    refine iff_of_false ?_ hfinite
    rintro ⟨s, m, e, h⟩
    split at h <;> cases h

/-- **Exactly the integers below the bound have a double.** -/
theorem exists_floatOfInt_iff {n : Int} :
    (∃ x, floatOfInt n = .ok x) ↔ n.natAbs < floatBound := by
  have hbits : (if n.natAbs = 0 then 0 else nearestBits n.natAbs 1) < 2047 * hiddenBit ↔
      n.natAbs < floatBound := by
    split
    · next hzero =>
      rw [hzero]
      exact iff_of_true (by decide) (by decide +kernel)
    · next hne => exact nearestBits_lt_iff (Nat.pos_of_ne_zero hne)
  have hle : (if n.natAbs = 0 then 0 else nearestBits n.natAbs 1) ≤ 2047 * hiddenBit := by
    split
    · exact Nat.zero_le _
    · exact nearestBits_le _ _
  rw [← hbits, ← exists_finite_iff (n < 0) hle]
  change _ ↔ ∃ s m e, form (ofQuotient (n < 0) n.natAbs 1) = .finite s m e
  rw [floatOfInt, ofInt?]
  cases hform : form (ofQuotient (n < 0) n.natAbs 1) with
  | finite s m e => exact iff_of_true ⟨_, rfl⟩ ⟨s, m, e, rfl⟩
  | infinite s =>
    refine iff_of_false ?_ ?_
    · rintro ⟨x, hx⟩
      cases hx
    · rintro ⟨_, _, _, h⟩
      cases h
  | nan =>
    refine iff_of_false ?_ ?_
    · rintro ⟨x, hx⟩
      cases hx
    · rintro ⟨_, _, _, h⟩
      cases h

/-! ## Integers as texts -/

/-- Exactly the integers without too many digits can be written. -/
theorem exists_writeInt_iff {n : Int} :
    (∃ s, writeInt n = .ok s) ↔ n.natAbs < 10 ^ digitLimit := by
  rw [← Nat.length_toDigits_le_iff (by decide) (by decide), writeInt]
  split
  · next hlong =>
    refine iff_of_false ?_ (not_le.2 hlong)
    rintro ⟨s, hs⟩
    cases hs
  · next hshort => exact iff_of_true ⟨_, rfl⟩ (not_lt.1 hshort)

/-- An integer that has a double can be written. -/
theorem exists_writeInt_of_lt {n : Int} (h : n.natAbs < floatBound) : ∃ s, writeInt n = .ok s := by
  obtain ⟨p, hbound, -, hdigits, -⟩ := exists_floatBound_eq
  rw [hbound] at h
  exact exists_writeInt_iff.2 (by omega)

theorem natAbs_signed (negative : Bool) (n : Nat) :
    (if negative then -(n : Int) else n).natAbs = n := by
  cases negative with
  | false => rfl
  | true => exact Int.natAbs_neg n

/-- An integer that is a double can be written. -/
theorem exists_writeInt_of_toInt? {x : Float} {n : Int} (h : toInt? x = some n) :
    ∃ s, writeInt n = .ok s := by
  obtain ⟨p, -, hp, hdigits, hbelow, -⟩ := exists_floatBound_eq
  refine exists_writeInt_iff.2 (Nat.lt_of_lt_of_le ?_ hdigits)
  unfold toInt? at h
  cases hform : form x with
  | nan => rw [hform] at h; cases h
  | infinite s => rw [hform] at h; cases h
  | finite negative m e =>
    obtain ⟨-, hm, -, hmost, -⟩ := eq_ofBits_of_form hform
    unfold hiddenBit at hm
    rw [hform] at h
    dsimp only at h
    split at h
    · next he =>
      obtain rfl := Option.some.inj h
      rw [natAbs_signed]
      calc m * Nat.pow 2 e.toNat ≤ m * (2 ^ 1 * p) :=
            Nat.mul_le_mul_left m (hbelow 1 e.toNat (by omega))
        _ < 2 ^ 53 * (2 ^ 1 * p) := Nat.mul_lt_mul_of_pos_right hm (by omega)
        _ = 2 ^ 54 * p := by omega
    · split at h
      · obtain rfl := Option.some.inj h
        rw [natAbs_signed]
        exact (Nat.div_le_self m _).trans_lt (by omega)
      · cases h

/-! ## Moderate numbers -/

/-- Whether a number has a double. -/
def Moderate : Number → Prop
  | .int n => n.natAbs < floatBound
  | .float _ => True

/-- Exactly the moderate numbers have a double. -/
theorem exists_toFloat_iff {n : Number} : (∃ x, n.toFloat = .ok x) ↔ n.Moderate := by
  cases n with
  | int n => exact exists_floatOfInt_iff
  | float x => exact iff_of_true ⟨x, rfl⟩ trivial

/-- Whether a text spells a moderate number or none. -/
def ModerateLiteral (s : List Char) : Prop :=
  ∃ n, readLiteral s = .ok n ∧ ∀ m ∈ n, m.Moderate

section

variable {base : Nat} {ds : List Nat} {s : List Char}

theorem foldl_lt (h : ∀ d ∈ ds, d < base) (n : Nat) :
    ds.foldl (fun n d => base * n + d) n < (n + 1) * base ^ ds.length := by
  induction ds generalizing n with
  | nil =>
    rw [List.length_nil, Nat.pow_zero, Nat.mul_one]
    exact Nat.lt_succ_self n
  | cons d ds ih =>
    obtain ⟨hd, hds⟩ := List.forall_mem_cons.1 h
    rw [List.foldl_cons, List.length_cons]
    calc ds.foldl (fun n d => base * n + d) (base * n + d)
        < (base * n + d + 1) * base ^ ds.length := ih hds _
      _ ≤ (base * (n + 1)) * base ^ ds.length :=
          Nat.mul_le_mul_right _ (by rw [Nat.mul_succ]; omega)
      _ = (n + 1) * base ^ (ds.length + 1) := by
          rw [Nat.pow_succ]
          ring

/-- A number is below the power of its base by the number of its digits. -/
theorem ofDigits_lt (h : ∀ d ∈ ds, d < base) : Text.ofDigits base ds < base ^ ds.length := by
  have hlt := foldl_lt h 0
  rwa [Nat.zero_add, Nat.one_mul] at hlt

/-- Numbers of up to 255 digits in bases up to sixteen are below the bound. -/
theorem ofDigits_lt_floatBound (h : ∀ d ∈ ds, d < base) (hbase : base ≤ 16)
    (hlength : ds.length ≤ 255) : Text.ofDigits base ds < floatBound :=
  calc Text.ofDigits base ds
      < base ^ ds.length := ofDigits_lt h
    _ ≤ 16 ^ ds.length := Nat.pow_le_pow_left hbase _
    _ ≤ 16 ^ 255 := Nat.pow_le_pow_right (by decide) hlength
    _ < floatBound := by decide +kernel

theorem digitValue?_lt {c : Char} {d : Nat} (h : Text.digitValue? c = some d) : d < 10 := by
  unfold Text.digitValue? at h
  split at h
  · split at h
    · next hdigit =>
      obtain rfl := Option.some.inj h
      have hnine : '9'.toNat = 57 := rfl
      have hle := (Char.isDigit_iff_toNat.1 hdigit).2
      omega
    · cases h
  · obtain ⟨z, hz, rfl⟩ := Option.map_eq_some_iff.1 h
    have hrow := List.find?_some hz
    rw [Bool.and_eq_true, decide_eq_true_eq, decide_eq_true_eq] at hrow
    omega

theorem splitDigits_le (s : List Char) :
    (splitDigits s).1.length ≤ s.length ∧ ∀ d ∈ (splitDigits s).1, d < 10 := by
  induction s with
  | nil => exact ⟨Nat.le_refl 0, List.forall_mem_nil _⟩
  | cons c r ih =>
    rw [splitDigits]
    split
    · next d hd =>
      exact ⟨Nat.succ_le_succ ih.1, List.forall_mem_cons.2 ⟨digitValue?_lt hd, ih.2⟩⟩
    · exact ⟨Nat.zero_le _, List.forall_mem_nil _⟩

theorem length_splitSign_le (s : List Char) : (splitSign s).2.length ≤ s.length := by
  unfold splitSign
  split
  · exact Nat.le_succ _
  · exact Nat.le_succ _
  · exact Nat.le_refl _

theorem integerDigits?_le {negative : Bool} (h : integerDigits? s = some (negative, ds)) :
    ds.length ≤ s.length ∧ ∀ d ∈ ds, d < 10 := by
  obtain ⟨hlength, hdigits⟩ := splitDigits_le (splitSign s).2
  unfold integerDigits? at h
  dsimp only at h
  split at h
  · cases h
  · next hsplit =>
    cases h
    rw [hsplit] at hlength hdigits
    exact ⟨hlength.trans (length_splitSign_le s), hdigits⟩
  · cases h

theorem length_of_mapM {f : Char → Option Nat} (h : s.mapM f = some ds) :
    ds.length = s.length ∧ ∀ d ∈ ds, ∃ c, f c = some d := by
  induction s generalizing ds with
  | nil =>
    cases h
    exact ⟨rfl, List.forall_mem_nil _⟩
  | cons c r ih =>
    rw [List.mapM_cons] at h
    obtain ⟨d, hd, h⟩ := Option.bind_eq_some_iff.1 h
    obtain ⟨ds', hds', h⟩ := Option.bind_eq_some_iff.1 h
    cases h
    obtain ⟨hlength, hmem⟩ := ih hds'
    exact ⟨congrArg Nat.succ hlength, List.forall_mem_cons.2 ⟨⟨c, hd⟩, hmem⟩⟩

theorem based?_lt {n : Int} (h : based? base s = some n) (hbase : base ≤ 16)
    (hlength : s.length ≤ 255) : n.natAbs < floatBound := by
  unfold based? at h
  split at h
  · cases h
  · obtain ⟨ds, hds, rfl⟩ := Option.map_eq_some_iff.1 h
    obtain ⟨heq, hmem⟩ := length_of_mapM hds
    refine ofDigits_lt_floatBound (fun d hd => ?_) hbase (heq ▸ hlength)
    obtain ⟨c, hc⟩ := hmem d hd
    simpa using (Option.filter_eq_some_iff.1 hc).2

theorem prefixed?_lt {n : Int} (h : prefixed? s = some n) (hlength : s.length ≤ 255) :
    n.natAbs < floatBound := by
  unfold prefixed? at h
  split at h
  · next c r =>
    have hr : r.length ≤ 255 := by
      rw [List.length_cons, List.length_cons] at hlength
      omega
    split at h
    · exact based?_lt h (by decide) hr
    · split at h
      · exact based?_lt h (by decide) hr
      · split at h
        · exact based?_lt h (by decide) hr
        · cases h
  · cases h

/-- Texts of up to 255 characters spell moderate numbers. -/
theorem moderateLiteral_of_length (h : s.length ≤ 255) : ModerateLiteral s := by
  have htrim : (Text.trim s).length ≤ 255 := (Text.trim_isInfix s).length_le.trans h
  unfold ModerateLiteral readLiteral
  dsimp only
  split
  · next negative ds hds =>
    obtain ⟨hlength, hdigits⟩ := integerDigits?_le hds
    have hlt := ofDigits_lt_floatBound hdigits (by decide) (hlength.trans htrim)
    have hshort : ¬digitLimit < ds.length := by
      unfold digitLimit
      omega
    refine ⟨_, by rw [ofSignedDigits, if_neg hshort]; rfl, fun m hm => ?_⟩
    cases hm
    show Int.natAbs _ < floatBound
    rwa [natAbs_signed]
  · split
    · refine ⟨_, rfl, fun m hm => ?_⟩
      cases hm
      trivial
    · split
      · next n hn =>
        refine ⟨_, rfl, fun m hm => ?_⟩
        cases hm
        exact prefixed?_lt hn htrim
      · refine ⟨_, rfl, fun m hm => ?_⟩
        obtain ⟨x, -, rfl⟩ := Option.map_eq_some_iff.1 hm
        trivial

end

end Storyline.Number
