import Storyline.Proofs.Number.Bits
import Storyline.Proofs.Number.Shortest
import Storyline.Number.Literal

/-!
# Decimals read back

A double is written as digits with a point among them and perhaps an exponent. The digits count as
one natural, the point and the exponent as a power of ten, and reading rounds their product to the
double that was written.

## Main definitions

* `Exponent`: the text of an exponent
* `Spells`: the text of a decimal without a sign
* `unsigned`: the text of a double without its sign

## Main results

* `ofDecimal_of_near`: a decimal in the interval around a double rounds to it
* `Spells.decimal?_eq`: what is read from the text of a decimal
* `exists_spells_render`: what a finite double is written as
-/

namespace Storyline.Number

open Text

/-! ## Rounding a decimal -/

theorem log2_lt_of_lt {n : Nat} (h : n < 10 ^ 30) : n.log2 < 100 := by
  rcases Nat.eq_zero_or_pos n with rfl | hn
  · decide
  · exact (Nat.log2_lt hn.ne').2 (h.trans (by decide))

/-- What rounds to a positive double is neither very large nor very small. -/
theorem Near.range {m : Nat} {e : Int} (hm : 0 < m) (hlt : m < 2 * hiddenBit)
    (hleast : -1074 ≤ e) (hmost : e ≤ 971) {q : ℚ} (h : Near m e q) :
    (10 : ℚ) ^ (-359 : Int) ≤ q ∧ q < 10 ^ (342 : Int) := by
  obtain ⟨hlow, hhigh, -⟩ := h.bounds
  have hpow := two_zpow_pos e
  have hm' : (1 : ℚ) ≤ m := Nat.one_le_cast.2 hm
  have hbelow : (below m e : ℚ) ≤ 2 := by
    unfold below
    split <;> norm_num
  constructor
  · -- Half of the least double is still above the least decimal that is tried.
    have hten : (2 : ℚ) ^ (1075 : Int) ≤ 10 ^ (359 : Int) := by
      have hnat := two_pow_le_ten_pow (show 1075 ≤ 3 * 359 by decide)
      rw [show (1075 : Int) = (1075 : Nat) from rfl, show (359 : Int) = (359 : Nat) from rfl,
        zpow_natCast, zpow_natCast]
      exact_mod_cast hnat
    calc (10 : ℚ) ^ (-359 : Int) = (10 ^ (359 : Int))⁻¹ := zpow_neg 10 359
      _ ≤ (2 ^ (1075 : Int))⁻¹ := inv_anti₀ (two_zpow_pos _) hten
      _ = 2 ^ (-1074 - 1 : Int) := (zpow_neg 2 1075).symm
      _ ≤ 2 ^ (e - 1) := zpow_le_zpow_right₀ one_le_two (by omega)
      _ = 1 / 2 * 2 ^ e := by rw [zpow_sub_one₀ two_ne_zero]; ring
      _ ≤ q := by nlinarith
  · -- And all doubles are below a power of ten that is not too large.
    have hten : (2 : ℚ) ^ (1025 : Int) ≤ 10 ^ (342 : Int) := by
      have hnat := two_pow_le_ten_pow (show 1025 ≤ 3 * 342 by decide)
      rw [show (1025 : Int) = (1025 : Nat) from rfl, show (342 : Int) = (342 : Nat) from rfl,
        zpow_natCast, zpow_natCast]
      exact_mod_cast hnat
    have hlt' : (m : ℚ) + 1 ≤ 2 * hiddenBit := by exact_mod_cast hlt
    have h54 : (2 : ℚ) ^ (54 : Int) = 4 * hiddenBit := by norm_num [hiddenBit]
    have hH : (1 : ℚ) ≤ hiddenBit := by norm_num [hiddenBit]
    calc q < 4 * hiddenBit * 2 ^ e := by nlinarith
      _ = 2 ^ (54 + e) := by rw [zpow_add₀ two_ne_zero, h54]
      _ ≤ 2 ^ (1025 : Int) := zpow_le_zpow_right₀ one_le_two (by omega)
      _ ≤ 10 ^ (342 : Int) := hten

/-- **A decimal in the interval around a double rounds to it.** -/
theorem ofDecimal_of_near {m : Nat} {e : Int} (hm : 0 < m) (hlt : m < 2 * hiddenBit)
    (hleast : -1074 ≤ e) (hmost : e ≤ 971) (hhidden : e = -1074 ∨ hiddenBit ≤ m) {n : Nat} {p : Int}
    (hn : n < 10 ^ 30) (h : Near m e (n * 10 ^ p)) (negative : Bool) :
    ofDecimal negative n p = Float.ofBits (UInt64.ofNat (bitsOf negative m e)) := by
  obtain ⟨hlow, hhigh⟩ := h.range hm hlt hleast hmost
  have hpos : 0 < n := by
    rcases Nat.eq_zero_or_pos n with rfl | hn
    · rw [Nat.cast_zero, zero_mul] at hlow
      exact absurd (ten_zpow_pos _) (not_lt.2 hlow)
    · exact hn
  have hn' : (1 : ℚ) ≤ n := Nat.one_le_cast.2 hpos
  have hlog := log2_lt_of_lt hn
  have hp₁ : p < 342 := by
    refine (zpow_lt_zpow_iff_right₀ (show (1 : ℚ) < 10 by norm_num)).1 (lt_of_le_of_lt ?_ hhigh)
    exact le_mul_of_one_le_left (ten_zpow_pos p).le hn'
  have hp₂ : -359 < p + 30 := by
    refine (zpow_lt_zpow_iff_right₀ (show (1 : ℚ) < 10 by norm_num)).1 (lt_of_le_of_lt hlow ?_)
    have hcast : (n : ℚ) < 10 ^ (30 : Int) := by exact_mod_cast hn
    rw [zpow_add₀ (by norm_num), mul_comm]
    exact mul_lt_mul_of_pos_left hcast (ten_zpow_pos p)
  have hquotient {num den : Nat} (hden : 0 < den) (hnear : Near m e (num / den)) :
      ofQuotient negative num den = Float.ofBits (UInt64.ofNat (bitsOf negative m e)) := by
    obtain ⟨hnum, hbits⟩ := nearestBits_of_near hm hlt hleast hmost hhidden hden hnear
    unfold ofQuotient bitsOf
    dsimp only
    rw [if_neg hnum.ne', hbits]
    cases negative
    · rw [if_neg Bool.false_ne_true, if_neg Bool.false_ne_true, Nat.zero_add]
    · rw [if_pos rfl, if_pos rfl]
  unfold ofDecimal
  dsimp only
  rw [if_neg, if_neg (by omega)]
  · -- The power of ten stands above the line or below it.
    by_cases hp : 0 ≤ p
    · rw [if_pos hp]
      refine hquotient one_pos ?_
      obtain ⟨k, rfl⟩ := Int.eq_ofNat_of_zero_le hp
      rw [zpow_natCast] at h
      simpa using h
    · rw [if_neg hp]
      obtain ⟨k, rfl⟩ : ∃ k : Nat, p = -k := ⟨(-p).toNat, by omega⟩
      rw [zpow_neg, zpow_natCast] at h
      rw [neg_neg, Int.toNat_natCast]
      refine hquotient (Nat.pow_pos (by decide)) ?_
      simpa [div_eq_mul_inv] using h
  · rw [Bool.or_eq_true, decide_eq_true_eq, decide_eq_true_eq]
    omega

/-! ## Digits -/

theorem digitValue?_of_isDigit {c : Char} (h : c.isDigit = true) :
    digitValue? c = some (c.toNat - 48) := by
  have hlt : c.toNat < 0x80 := by
    have hle : c.val ≤ 57 := by
      rw [Char.isDigit, Bool.and_eq_true, decide_eq_true_eq, decide_eq_true_eq] at h
      exact h.2
    exact Nat.lt_of_le_of_lt (UInt32.le_iff_toNat_le.1 hle) (by decide)
  rw [digitValue?, if_pos hlt, if_pos h]

theorem splitDigits_append {ds r : List Char} (hds : ∀ c ∈ ds, c.isDigit = true)
    (hr : ∀ c ∈ r.head?, digitValue? c = none) :
    splitDigits (ds ++ r) = (ds.map fun c => c.toNat - 48, r) := by
  induction ds with
  | nil =>
    cases r with
    | nil => rfl
    | cons c r =>
      rw [List.nil_append, splitDigits, hr c (Option.mem_some_self c)]
      rfl
  | cons c ds ih =>
    rw [List.cons_append, splitDigits, digitValue?_of_isDigit (hds c List.mem_cons_self),
      ih fun d hd => hds d (List.mem_cons_of_mem _ hd)]
    rfl

theorem ofDigits_map (ds : List Char) :
    ofDigits 10 (ds.map fun c => c.toNat - 48) = Nat.ofDigitChars 10 ds 0 := by
  rw [ofDigits, List.foldl_map, Nat.ofDigitChars_eq_foldl]
  rfl

theorem isDigit_of_mem_toDigits {n : Nat} {c : Char} (h : c ∈ Nat.toDigits 10 n) :
    c.isDigit = true :=
  Nat.isDigit_of_mem_toDigits (by decide) (by decide) h

theorem splitSign_of_isDigit {c : Char} (h : c.isDigit = true) (r : List Char) :
    splitSign (c :: r) = (false, c :: r) := by
  unfold splitSign
  split
  · next heq =>
    obtain ⟨rfl, -⟩ := List.cons.inj heq
    exact absurd h (by decide)
  · next heq =>
    obtain ⟨rfl, -⟩ := List.cons.inj heq
    exact absurd h (by decide)
  · rfl

/-! ## The text of a decimal -/

/-- The text of an exponent: nothing, or a sign and digits after the letter. -/
inductive Exponent : List Char → Int → Prop where
  | none : Exponent [] 0
  | some (negative : Bool) {ds : List Char} (hne : ds ≠ []) (hds : ∀ c ∈ ds, c.isDigit = true) :
    Exponent ('e' :: (if negative then '-' else '+') :: ds)
      (if negative then -(Nat.ofDigitChars 10 ds 0 : Int) else Nat.ofDigitChars 10 ds 0)

theorem integerDigits?_signed (negative : Bool) {ds : List Char} (hne : ds ≠ [])
    (hds : ∀ c ∈ ds, c.isDigit = true) :
    integerDigits? ((if negative then '-' else '+') :: ds) =
      some (negative, ds.map fun c => c.toNat - 48) := by
  have hsplit := splitDigits_append (r := []) hds (by simp)
  rw [List.append_nil] at hsplit
  cases ds with
  | nil => exact absurd rfl hne
  | cons d ds => cases negative <;> simp [integerDigits?, splitSign, hsplit]

theorem Exponent.exponent?_eq {s : List Char} {e : Int} (h : Exponent s e) :
    exponent? s = Option.some e := by
  cases h with
  | none => rfl
  | some negative hne hds =>
    rw [exponent?, if_pos (by decide), integerDigits?_signed negative hne hds, Option.map_some,
      ofDigits_map]

theorem Exponent.digitValue?_head {s : List Char} {e : Int} (h : Exponent s e) :
    ∀ c ∈ s.head?, digitValue? c = Option.none := by
  cases h with
  | none => simp
  | some negative hne hds =>
    intro c hc
    cases hc
    decide

/-- The text of the decimal `n · 10 ^ p`: digits with a point after the first of them or later, and
an exponent. -/
inductive Spells : List Char → Nat → Int → Prop where
  | intro {whole fraction exponent : List Char} {e : Int} (hne : whole ≠ [])
    (hwhole : ∀ c ∈ whole, c.isDigit = true) (hfraction : ∀ c ∈ fraction, c.isDigit = true)
    (hexponent : Exponent exponent e) :
    Spells (whole ++ '.' :: (fraction ++ exponent)) (Nat.ofDigitChars 10 (whole ++ fraction) 0)
      (e - fraction.length)

/-- Reading the text of a decimal rounds the decimal. -/
theorem Spells.decimal?_eq {s : List Char} {n : Nat} {p : Int} (h : Spells s n p) :
    decimal? s = some (ofDecimal false n p) := by
  obtain ⟨hne, hwhole, hfraction, hexponent⟩ := h
  rename_i whole fraction exponent e
  have hsign : splitSign (whole ++ '.' :: (fraction ++ exponent)) =
      (false, whole ++ '.' :: (fraction ++ exponent)) := by
    cases whole with
    | nil => exact absurd rfl hne
    | cons c whole => exact splitSign_of_isDigit (hwhole c List.mem_cons_self) _
  have hpoint : splitDigits (whole ++ '.' :: (fraction ++ exponent)) =
      (whole.map fun c => c.toNat - 48, '.' :: (fraction ++ exponent)) :=
    splitDigits_append hwhole fun c hc => by cases hc; decide
  have hrest := splitDigits_append hfraction hexponent.digitValue?_head
  unfold decimal?
  rw [hsign]
  dsimp only
  rw [hpoint]
  simp only [hrest]
  rw [hexponent.exponent?_eq, if_neg (by simpa using fun h => absurd h hne), ← List.map_append,
    ofDigits_map, List.length_map]
  rfl

/-! ## What is written -/

theorem isDigit_of_mem_replicate {n : Nat} {c : Char} (h : c ∈ List.replicate n '0') :
    c.isDigit = true := by
  rw [List.eq_of_mem_replicate h]
  rfl

theorem ofDigitChars_zeros (n : Nat) (ds : List Char) :
    Nat.ofDigitChars 10 (List.replicate n '0' ++ ds) 0 = Nat.ofDigitChars 10 ds 0 := by
  rw [Nat.ofDigitChars_append, Nat.ofDigitChars_replicate_zero, Nat.mul_zero]

/-- Digits with a point spell the digits at their place. -/
theorem exists_spells_positional {d : Nat} {k : Int} (hd : d < 10 ^ 20) (hk : k < 16) :
    ∃ n p, Spells (positional (Nat.toDigits 10 d) k) n p ∧ n < 10 ^ 30 ∧
      (n : ℚ) * 10 ^ p = d * 10 ^ (k + 1 - (Nat.toDigits 10 d).length) := by
  have hdigit {c : Char} (h : c ∈ Nat.toDigits 10 d) := isDigit_of_mem_toDigits h
  have hvalue : Nat.ofDigitChars 10 (Nat.toDigits 10 d) 0 = d := Nat.ofDigitChars_ten_toDigits
  have hne : Nat.toDigits 10 d ≠ [] := Nat.toDigits_ne_nil
  have hlt : d < 10 ^ (Nat.toDigits 10 d).length :=
    (Nat.length_toDigits_le_iff (by decide) Nat.length_toDigits_pos).1 le_rfl
  generalize Nat.toDigits 10 d = ds at *
  -- The point stands before the digits, behind them, or among them.
  unfold positional
  by_cases hneg : k < 0
  · rw [if_pos hneg]
    have h := @Spells.intro ['0'] (List.replicate (-k - 1).toNat '0' ++ ds) [] 0 (by simp)
      (by simp) (fun c hc => (List.mem_append.1 hc).elim isDigit_of_mem_replicate hdigit) .none
    have hn : Nat.ofDigitChars 10 (['0'] ++ (List.replicate (-k - 1).toNat '0' ++ ds)) 0 = d := by
      rw [← List.append_assoc, show ['0'] ++ List.replicate (-k - 1).toNat '0' =
        List.replicate ((-k - 1).toNat + 1) '0' from rfl, ofDigitChars_zeros, hvalue]
    rw [hn, List.append_nil] at h
    refine ⟨_, _, h, hd.trans (by decide), ?_⟩
    congr 2
    rw [List.length_append, List.length_replicate]
    omega
  · rw [if_neg hneg]
    dsimp only
    by_cases hlen : ds.length ≤ k.toNat + 1
    · -- zeros up to the point and one behind it count as ten times the digits
      rw [if_pos hlen]
      have h := @Spells.intro (ds ++ List.replicate (k.toNat + 1 - ds.length) '0') ['0'] [] 0
        (by simp [hne]) (fun c hc => (List.mem_append.1 hc).elim hdigit isDigit_of_mem_replicate)
        (by simp) .none
      obtain ⟨zeros, hzeros⟩ := Nat.exists_eq_add_of_le hlen
      rw [show k.toNat + 1 - ds.length = zeros by omega] at h ⊢
      have hn : Nat.ofDigitChars 10 (ds ++ List.replicate zeros '0' ++ ['0']) 0 =
          10 * (10 ^ zeros * d) := by
        rw [Nat.ofDigitChars_append, Nat.ofDigitChars_append, hvalue,
          Nat.ofDigitChars_replicate_zero]
        rfl
      rw [hn, List.append_assoc, List.append_nil] at h
      refine ⟨_, _, by rw [List.append_assoc]; exact h, ?_, ?_⟩
      · calc 10 * (10 ^ zeros * d) ≤ 10 * (10 ^ zeros * 10 ^ ds.length) := by gcongr
          _ = 10 ^ (k.toNat + 2) := by
              rw [← Nat.pow_add, ← Nat.pow_succ', show (zeros + ds.length).succ = k.toNat + 2 by
                omega]
          _ < 10 ^ 30 := Nat.pow_lt_pow_right (by decide) (by omega)
      · rw [show k + 1 - ds.length = (zeros : Int) by omega, zpow_natCast]
        push_cast
        norm_num
        ring
    · rw [if_neg hlen]
      have h := @Spells.intro (ds.take (k.toNat + 1)) (ds.drop (k.toNat + 1)) [] 0
        (by simp [hne]) (fun c hc => hdigit (List.mem_of_mem_take hc))
        (fun c hc => hdigit (List.mem_of_mem_drop hc)) .none
      rw [List.take_append_drop, List.append_nil, hvalue] at h
      refine ⟨_, _, h, hd.trans (by decide), ?_⟩
      congr 2
      rw [List.length_drop]
      omega

theorem exists_exponent (k : Int) :
    Exponent ('e' :: (if k < 0 then '-' else '+') ::
      (List.replicate (2 - (Nat.toDigits 10 k.natAbs).length) '0' ++
        Nat.toDigits 10 k.natAbs)) k := by
  have h := @Exponent.some (decide (k < 0))
    (List.replicate (2 - (Nat.toDigits 10 k.natAbs).length) '0' ++ Nat.toDigits 10 k.natAbs)
    (List.append_ne_nil_of_right_ne_nil _ Nat.toDigits_ne_nil)
    (fun c hc => (List.mem_append.1 hc).elim isDigit_of_mem_replicate isDigit_of_mem_toDigits)
  rw [ofDigitChars_zeros, Nat.ofDigitChars_ten_toDigits] at h
  by_cases hk : k < 0
  · rw [decide_eq_true hk, if_pos rfl, if_pos rfl, show -(k.natAbs : Int) = k by omega] at h
    rwa [if_pos hk]
  · rw [decide_eq_false hk, if_neg Bool.false_ne_true, if_neg Bool.false_ne_true,
      show (k.natAbs : Int) = k by omega] at h
    rwa [if_neg hk]

/-- Digits with an exponent spell the digits at their place. -/
theorem exists_spells_scientific {layout : Layout} (hlayout : layout.pointBeforeExponent = true)
    {d : Nat} (k : Int) (hd : d < 10 ^ 20) :
    ∃ n p, Spells (scientific layout (Nat.toDigits 10 d) k) n p ∧ n < 10 ^ 30 ∧
      (n : ℚ) * 10 ^ p = d * 10 ^ (k + 1 - (Nat.toDigits 10 d).length) := by
  have hdigit {c : Char} (h : c ∈ Nat.toDigits 10 d) := isDigit_of_mem_toDigits h
  have hvalue : Nat.ofDigitChars 10 (Nat.toDigits 10 d) 0 = d := Nat.ofDigitChars_ten_toDigits
  have hne : Nat.toDigits 10 d ≠ [] := Nat.toDigits_ne_nil
  have hexponent := exists_exponent k
  unfold scientific
  dsimp only
  generalize Nat.toDigits 10 d = ds at *
  rw [hlayout]
  rcases ds with _ | ⟨c, _ | ⟨c', r⟩⟩
  · exact absurd rfl hne
  · -- a digit alone has a zero behind its point
    have h := @Spells.intro [c] ['0'] _ k (by simp) (fun x hx => hdigit hx) (by simp) hexponent
    have hn : Nat.ofDigitChars 10 ([c] ++ ['0']) 0 = 10 * d := by
      rw [Nat.ofDigitChars_append, hvalue]
      rfl
    rw [hn] at h
    refine ⟨_, _, h, ?_, ?_⟩
    · calc 10 * d ≤ 10 * 10 ^ 20 := by gcongr
        _ < 10 ^ 30 := by norm_num
    · rw [show k + 1 - ([c].length : Int) = k by simp, List.length_singleton, Nat.cast_one,
        zpow_sub_one₀ (by norm_num)]
      push_cast
      ring
  · have h := @Spells.intro [c] (c' :: r) _ k (by simp)
      (fun x hx => hdigit (by simp_all)) (fun x hx => hdigit (List.mem_cons_of_mem _ hx)) hexponent
    have hn : Nat.ofDigitChars 10 ([c] ++ c' :: r) 0 = d := hvalue
    rw [hn] at h
    refine ⟨_, _, by simpa using h, hd.trans (by decide), ?_⟩
    congr 2
    rw [List.length_cons, List.length_cons]
    omega

/-- The text of `d · 10 ^ p`, with an exponent when it is very large or very small. -/
def unsigned (layout : Layout) (d : Nat) (p : Int) : List Char :=
  let ds := Nat.toDigits 10 d
  let k : Int := p + ds.length - 1
  if layout.least ≤ k && k < layout.limit then positional ds k else scientific layout ds k

theorem toList_render {layout : Layout} {x : Float} {negative : Bool} {m : Nat} {e : Int}
    (h : form x = .finite negative m e) :
    (render layout x).toList =
      if negative then '-' :: unsigned layout (shortest m e).1 (shortest m e).2
      else unsigned layout (shortest m e).1 (shortest m e).2 := by
  unfold render
  rw [h]
  dsimp only
  rw [String.toList_ofList]
  rfl

theorem exists_spells_unsigned {layout : Layout} (hlimit : layout.limit ≤ 16)
    (hlayout : layout.pointBeforeExponent = true) {d : Nat} (hd : d < 10 ^ 20) (p : Int) :
    ∃ n q, Spells (unsigned layout d p) n q ∧ n < 10 ^ 30 ∧ (n : ℚ) * 10 ^ q = d * 10 ^ p := by
  have hp : p + (Nat.toDigits 10 d).length - 1 + 1 - (Nat.toDigits 10 d).length = p := by omega
  unfold unsigned
  dsimp only
  split
  · next hk =>
    rw [Bool.and_eq_true, decide_eq_true_eq, decide_eq_true_eq] at hk
    have h := exists_spells_positional hd (hk.2.trans_le hlimit)
    rwa [hp] at h
  · have h := exists_spells_scientific hlayout (p + (Nat.toDigits 10 d).length - 1) hd
    rwa [hp] at h

/-- **A finite double is written as a decimal that rounds to it**, after a minus sign if it is
negative. -/
theorem exists_spells_render {layout : Layout} (hlimit : layout.limit ≤ 16)
    (hlayout : layout.pointBeforeExponent = true) {x : Float} {negative : Bool} {m : Nat} {e : Int}
    (h : form x = .finite negative m e) :
    ∃ s n p, (render layout x).toList = (if negative then '-' :: s else s) ∧ Spells s n p ∧
      x = if negative then -ofDecimal false n p else ofDecimal false n p := by
  obtain ⟨hx, hlt, hleast, hmost, hhidden⟩ := eq_ofBits_of_form h
  -- A finite double of some sign is the opposite of the positive one, or that one.
  have hbits : x = if negative then -Float.ofBits (UInt64.ofNat (bitsOf false m e))
      else Float.ofBits (UInt64.ofNat (bitsOf false m e)) := by
    have hle : bitsOf false m e ≤ 2047 * 2 ^ 52 := by
      unfold bitsOf hiddenBit at *
      rw [if_neg Bool.false_ne_true]
      omega
    cases negative
    · exact hx
    · rw [if_pos rfl, neg_ofNat hle, hx]
      unfold bitsOf
      rw [if_neg Bool.false_ne_true, if_pos rfl, Nat.zero_add]
      rfl
  obtain ⟨hd, hnear⟩ : (shortest m e).1 < 10 ^ 20 ∧ (0 < m →
      Near m e ((shortest m e).1 * 10 ^ (shortest m e).2)) := by
    rcases Nat.eq_zero_or_pos m with rfl | hm
    · exact ⟨show 0 < 10 ^ 20 by decide, fun h => absurd h (lt_irrefl 0)⟩
    · exact ⟨(shortest_near hm hlt hleast).2, fun _ => (shortest_near hm hlt hleast).1⟩
  have hzero : m = 0 → (shortest m e).1 = 0 := by
    rintro rfl
    rfl
  rw [toList_render h]
  generalize shortest m e = dp at *
  obtain ⟨d, p⟩ := dp
  obtain ⟨n, q, hs, hn, heq⟩ := exists_spells_unsigned hlimit hlayout hd p
  refine ⟨_, n, q, rfl, hs, ?_⟩
  rw [hbits]
  suffices hof : ofDecimal false n q = Float.ofBits (UInt64.ofNat (bitsOf false m e)) by rw [hof]
  rcases Nat.eq_zero_or_pos m with rfl | hm
  · have hd₀ : d = 0 := hzero rfl
    have hn₀ : n = 0 := by
      rw [hd₀, Nat.cast_zero, zero_mul] at heq
      have := (mul_eq_zero.1 heq).resolve_right (ten_zpow_pos q).ne'
      exact_mod_cast this
    have he : e = -1074 := hhidden.resolve_right (by decide)
    rw [hn₀, he]
    rfl
  · exact ofDecimal_of_near hm hlt hleast hmost hhidden hn (heq ▸ hnear hm) false

end Storyline.Number
