import Mathlib.Algebra.Order.Field.Power
import Mathlib.Algebra.Order.Field.Rat
import Mathlib.Tactic.FieldSimp
import Mathlib.Tactic.Positivity
import TextAdventure.Binary64
import TextAdventure.Proofs.Decimal

/-!
# Floating-point numbers are read back

Rounding looks at a quotient only as a number (`round_congr`): the grid on which it rounds is
determined by the size of the number (`grid_unique`), and so is the nearest point of the grid. Hence
zeros at the end of a decimal may move into its exponent (`ofDecimal_shift`), and a number of the
format is its own rounding (`round_eq_some`).

With this the text of a number stands for it: `Binary64.shortest` tries decimals until one is read
back as the number, and the number written out in full, which stands behind them, is read back too.
-/

namespace TextAdventure.Binary64

/-- The number that a quotient is. -/
def ratio (q : Nat × Nat) : ℚ := q.1 / q.2

/-- Scaling keeps the denominator of a quotient away from zero. -/
theorem scale_snd_ne_zero {base den : Nat} (hbase : base ≠ 0) (hden : den ≠ 0) (num : Nat)
    (e : Int) : (scale base num den e).2 ≠ 0 := by
  unfold scale
  split
  · exact Nat.mul_ne_zero hden (Nat.pow_pos (Nat.pos_of_ne_zero hbase)).ne'
  · exact hden

/-- Scaling multiplies the number by a power of the base. -/
theorem ratio_scale {base : Nat} (hbase : base ≠ 0) (num den : Nat) (e : Int) :
    ratio (scale base num den e) = (num : ℚ) / den * (base : ℚ) ^ e := by
  have hb : (base : ℚ) ≠ 0 := by exact_mod_cast hbase
  unfold ratio scale
  split
  · -- A negative power scales the denominator, any other one the numerator.
    obtain ⟨k, hk⟩ := Int.eq_ofNat_of_zero_le (by omega : 0 ≤ -e)
    have he : e = -(k : Int) := by omega
    rw [he, neg_neg, Int.toNat_natCast, zpow_neg, zpow_natCast, Nat.pow_eq]
    push_cast
    rw [div_mul_eq_div_div, div_eq_mul_inv _ ((base : ℚ) ^ k)]
  · obtain ⟨k, hk⟩ := Int.eq_ofNat_of_zero_le (by omega : 0 ≤ e)
    rw [hk, Int.toNat_natCast, zpow_natCast, Nat.pow_eq]
    push_cast
    rw [mul_div_right_comm]

/-! ### The grid -/

/-- The grid of an exponent is the one on which a number is rounded: the number has at most 53 bits
before the binary point, and no grid of the format is finer unless there it has more. -/
def OnGrid (q : ℚ) (e : Int) : Prop :=
  -1074 ≤ e ∧ q < 2 ^ (e + 53) ∧ (e ≠ -1074 → 2 ^ (e + 52) ≤ q)

/-- Two powers of two compare as their exponents do. -/
theorem le_of_two_zpow_lt {m n : Int} (h : (2 : ℚ) ^ m < 2 ^ n) : m < n :=
  (zpow_lt_zpow_iff_right₀ (by norm_num)).mp h

/-- A number is rounded on one grid. -/
theorem grid_unique {q : ℚ} {e e' : Int} (h : OnGrid q e) (h' : OnGrid q e') : e = e' := by
  -- Were one grid coarser, its least number would lie beyond the bound of the other.
  have hle : ∀ {m n : Int}, OnGrid q m → OnGrid q n → m ≤ n := by
    intro m n ⟨_, _, hm⟩ ⟨hn, hlt, _⟩
    by_contra hgt
    have hpow := le_of_two_zpow_lt ((hm (by omega)).trans_lt hlt)
    omega
  exact le_antisymm (hle h h') (hle h' h)

/-- The logarithm of a number to the base of two, rounded down. -/
theorem two_pow_log2 {n : Nat} (h : n ≠ 0) :
    (2 : ℚ) ^ (n.log2 : Int) ≤ n ∧ (n : ℚ) < 2 ^ ((n.log2 : Int) + 1) := by
  constructor
  · rw [zpow_natCast]
    exact_mod_cast Nat.log2_self_le h
  · have hlt : n < 2 ^ (n.log2 + 1) := Nat.lt_log2_self
    have hcast : ((n.log2 : Int) + 1) = ((n.log2 + 1 : Nat) : Int) := by push_cast; rfl
    rw [hcast, zpow_natCast]
    exact_mod_cast hlt

/-- The exponent that rounding takes is that of the grid of the number. -/
theorem onGrid_gridExponent {num den : Nat} (hnum : num ≠ 0) (hden : den ≠ 0) :
    OnGrid ((num : ℚ) / den) (gridExponent num den) := by
  obtain ⟨hnlow, hnhigh⟩ := two_pow_log2 hnum
  obtain ⟨hdlow, hdhigh⟩ := two_pow_log2 hden
  have hdpos : (0 : ℚ) < den := by exact_mod_cast Nat.pos_of_ne_zero hden
  have htwo : (2 : ℚ) ≠ 0 := by norm_num
  unfold gridExponent
  extract_lets low
  -- The number lies between two powers of two that are two apart.
  have hlow : (2 : ℚ) ^ (low + 52) ≤ (num : ℚ) / den := by
    rw [le_div_iff₀ hdpos]
    calc (2 : ℚ) ^ (low + 52) * den ≤ 2 ^ (low + 52) * 2 ^ ((den.log2 : Int) + 1) := by gcongr
      _ = 2 ^ (num.log2 : Int) := by rw [← zpow_add₀ htwo]; congr 1; omega
      _ ≤ num := hnlow
  have hhigh : (num : ℚ) / den < 2 ^ (low + 54) := by
    rw [div_lt_iff₀ hdpos]
    calc (num : ℚ) < 2 ^ ((num.log2 : Int) + 1) := hnhigh
      _ = 2 ^ (low + 54) * 2 ^ (den.log2 : Int) := by rw [← zpow_add₀ htwo]; congr 1; omega
      _ ≤ 2 ^ (low + 54) * den := by gcongr
  -- The test of the exponent compares the number with the power of two between these.
  have hscale := ratio_scale two_ne_zero num den (-low)
  have hsnd := scale_snd_ne_zero two_ne_zero hden num (-low)
  generalize scale 2 num den (-low) = s at hscale hsnd
  obtain ⟨a, b⟩ := s
  have hbpos : (0 : ℚ) < b := by exact_mod_cast Nat.pos_of_ne_zero hsnd
  have htest : a / b < Nat.pow 2 53 ↔ (num : ℚ) / den < 2 ^ (low + 53) := by
    have hq : (num : ℚ) / den = (a : ℚ) / b * 2 ^ low := by
      show _ = ratio (a, b) * 2 ^ low
      rw [hscale, mul_assoc, Nat.cast_ofNat, ← zpow_add₀ htwo, neg_add_cancel, zpow_zero, mul_one]
    have hpos : (0 : ℚ) < 2 ^ low := by positivity
    rw [Nat.div_lt_iff_lt_mul (Nat.pos_of_ne_zero hsnd), hq, add_comm, zpow_add₀ htwo,
      mul_lt_mul_iff_left₀ hpos, div_lt_iff₀ hbpos, Nat.pow_eq]
    exact_mod_cast Iff.rfl
  show OnGrid _ (max (-1074) (if a / b < Nat.pow 2 53 then low else low + 1))
  -- Below the middle power the finer grid is the one, above it the next one.
  by_cases hfine : a / b < Nat.pow 2 53
  · rw [if_pos hfine]
    refine ⟨le_max_left _ _, lt_of_lt_of_le (htest.mp hfine) ?_, fun hne => ?_⟩
    · exact zpow_le_zpow_right₀ (by norm_num) (by omega)
    · rw [max_eq_right (by omega)]
      exact hlow
  · rw [if_neg hfine]
    refine ⟨le_max_left _ _, lt_of_lt_of_le hhigh ?_, fun hne => ?_⟩
    · exact zpow_le_zpow_right₀ (by norm_num) (by omega)
    · rw [max_eq_right (by omega)]
      have hnot := not_lt.mp (mt htest.mpr hfine)
      have hexp : low + 1 + 52 = low + 53 := by omega
      rw [hexp]
      exact hnot

/-! ### Rounding -/

/-- Equal quotients are rounded to the same whole number. -/
theorem divideToEven_congr {a b a' b' : Nat} (hb : b ≠ 0) (hb' : b' ≠ 0)
    (h : a * b' = a' * b) : divideToEven a b = divideToEven a' b' := by
  have hbpos := Nat.pos_of_ne_zero hb
  have hbpos' := Nat.pos_of_ne_zero hb'
  -- The quotient and the place of the remainder within the divisor are the same for both.
  have hdiv : a / b = a' / b' := by
    rw [← Nat.mul_div_mul_right a b hbpos', ← Nat.mul_div_mul_right a' b' hbpos, h, mul_comm b b']
  have hmod : a % b * b' = a' % b' * b := by
    rw [← Nat.mul_mod_mul_right, ← Nat.mul_mod_mul_right, h, mul_comm b b']
  have hlt : 2 * (a % b) < b ↔ 2 * (a' % b') < b' := by
    rw [← Nat.mul_lt_mul_right hbpos', mul_assoc, hmod, ← mul_assoc, mul_comm b b',
      Nat.mul_lt_mul_right hbpos]
  have heq : 2 * (a % b) = b ↔ 2 * (a' % b') = b' := by
    rw [← Nat.mul_left_inj hb', mul_assoc, hmod, ← mul_assoc, mul_comm b b', Nat.mul_left_inj hb]
  unfold divideToEven
  simp only [hdiv, hlt, beq_eq_decide, heq]

/-- Quotients are equal as numbers if they are equal crosswise. -/
theorem cross_of_ratio_eq (q q' : Nat × Nat) (hq : q.2 ≠ 0) (hq' : q'.2 ≠ 0)
    (h : ratio q = ratio q') : q.1 * q'.2 = q'.1 * q.2 := by
  have hne : (q.2 : ℚ) ≠ 0 := by exact_mod_cast hq
  have hne' : (q'.2 : ℚ) ≠ 0 := by exact_mod_cast hq'
  have hcross := (div_eq_div_iff hne hne').mp h
  exact_mod_cast hcross

/-- Equal quotients are rounded to the same number. -/
theorem round_congr {negative : Bool} {num den num' den' : Nat} (hden : den ≠ 0) (hden' : den' ≠ 0)
    (h : (num : ℚ) / den = (num' : ℚ) / den') :
    round negative num den = round negative num' den' := by
  have hcross : num * den' = num' * den :=
    cross_of_ratio_eq (num, den) (num', den') hden hden' h
  -- Zero has no grid.
  -- The quotients are the same number, so they have the same grid and the same place on it.
  by_cases hnum : num = 0
  · have hnum' : num' = 0 := by
      rw [hnum, zero_mul] at hcross
      exact (Nat.mul_eq_zero.mp hcross.symm).resolve_right hden
    rw [hnum, hnum']
    rfl
  · have hnum' : num' ≠ 0 := by
      rintro rfl
      rw [zero_mul] at hcross
      exact (Nat.mul_ne_zero hnum hden') hcross
    have hgrid : gridExponent num den = gridExponent num' den' :=
      grid_unique (onGrid_gridExponent hnum hden) (h ▸ onGrid_gridExponent hnum' hden')
    unfold round
    rw [if_neg (by simpa using hnum), if_neg (by simpa using hnum'), hgrid]
    generalize gridExponent num' den' = e
    have heven : divideToEven (scale 2 num den (-e)).1 (scale 2 num den (-e)).2 =
        divideToEven (scale 2 num' den' (-e)).1 (scale 2 num' den' (-e)).2 := by
      have hs := scale_snd_ne_zero two_ne_zero hden num (-e)
      have hs' := scale_snd_ne_zero two_ne_zero hden' num' (-e)
      refine divideToEven_congr hs hs' (cross_of_ratio_eq _ _ hs hs' ?_)
      rw [ratio_scale two_ne_zero, ratio_scale two_ne_zero, h]
    simp only [heven]

/-- A number of the format is its own rounding. -/
theorem round_eq_some {x : Binary64} {num den : Nat} (hx : x.significand ≠ 0) (hden : den ≠ 0)
    (h : (num : ℚ) / den = x.significand * 2 ^ x.exponent) :
    round x.negative num den = some x := by
  obtain ⟨hm, hlow, hhigh, hnormal⟩ := x.canonical
  have htwo : (2 : ℚ) ≠ 0 := by norm_num
  have hpos : (0 : ℚ) < 2 ^ x.exponent := by positivity
  have hnum : num ≠ 0 := by
    rintro rfl
    rw [Nat.cast_zero, zero_div] at h
    exact mul_ne_zero (by exact_mod_cast hx) hpos.ne' h.symm
  -- The canonical form says that the exponent of the number is that of its grid.
  have hgrid : gridExponent num den = x.exponent := by
    refine grid_unique (onGrid_gridExponent hnum hden) ⟨hlow, ?_, fun hne => ?_⟩
    · rw [h, add_comm, zpow_add₀ htwo, mul_lt_mul_iff_left₀ hpos]
      exact_mod_cast hm
    · rw [h, add_comm, zpow_add₀ htwo, mul_le_mul_iff_left₀ hpos]
      exact_mod_cast hnormal.resolve_right hne
  -- On this grid the number is a whole one, its significand, and is not rounded.
  have heven : divideToEven (scale 2 num den (-x.exponent)).1 (scale 2 num den (-x.exponent)).2 =
      x.significand := by
    have hs := scale_snd_ne_zero two_ne_zero hden num (-x.exponent)
    have hratio : ratio (scale 2 num den (-x.exponent)) = ratio (x.significand, 1) := by
      rw [ratio_scale two_ne_zero, h, mul_assoc, Nat.cast_ofNat, ← zpow_add₀ htwo, add_neg_cancel,
        zpow_zero, mul_one]
      simp [ratio]
    rw [divideToEven_congr hs one_ne_zero (cross_of_ratio_eq _ _ hs one_ne_zero hratio)]
    simp [divideToEven, Nat.mod_one]
  unfold round
  rw [if_neg (by simpa using hnum), hgrid]
  simp only [heven, if_pos hm]
  unfold ofParts?
  rw [dif_pos x.canonical]

/-- A quotient far beyond the largest number is not rounded. -/
theorem round_eq_none {negative : Bool} {num den : Nat} (hden : den ≠ 0)
    (h : (2 : ℚ) ^ (1025 : Int) ≤ (num : ℚ) / den) : round negative num den = none := by
  have hnum : num ≠ 0 := by
    rintro rfl
    rw [Nat.cast_zero, zero_div] at h
    exact absurd h (not_le.mpr (by positivity))
  obtain ⟨-, hlt, -⟩ := onGrid_gridExponent hnum hden
  have hexp := le_of_two_zpow_lt (h.trans_lt hlt)
  unfold round
  rw [if_neg (by simpa using hnum)]
  generalize gridExponent num den = e at hexp
  -- The grid is too coarse for the format, also if the significand is carried over.
  have hparts : ∀ m e', 971 < e' → ofParts? negative m e' = none := by
    intro m e' he'
    unfold ofParts?
    rw [dif_neg (by omega)]
  simp only [hparts _ e (by omega), hparts _ (e + 1) (by omega), ite_self]

/-! ### Decimals -/

/-- A decimal whose first digit is far enough from the smallest numbers and that is not far beyond
the largest one is rounded as a quotient. -/
theorem ofDecimal_eq_round {negative : Bool} {d : Decimal} (hdigits : d.digits ≠ 0)
    (hhigh : d.exponent ≤ 400)
    (hlow : -400 ≤ d.exponent + (Decimal.digitList d.digits).length) :
    ofDecimal negative d =
      round negative (scale 10 d.digits 1 d.exponent).1 (scale 10 d.digits 1 d.exponent).2 := by
  unfold ofDecimal
  rw [if_neg (by simpa using hdigits), if_neg (by omega), if_neg (by omega)]

/-- A decimal that is read as a number other than zero has a digit other than zero. -/
theorem digits_ne_zero {x : Binary64} {d : Decimal} (hx : x.significand ≠ 0)
    (h : ofDecimal x.negative d = some x) : d.digits ≠ 0 := by
  intro hzero
  unfold ofDecimal at h
  rw [if_pos (by simpa using hzero)] at h
  exact hx (congrArg significand (Option.some.inj h)).symm

/-- Decimals with an exponent of 400 or more are beyond all numbers. -/
theorem ofDecimal_eq_none {negative : Bool} {d : Decimal} (hdigits : d.digits ≠ 0)
    (h : 400 ≤ d.exponent) : ofDecimal negative d = none := by
  -- Beyond 400 the reader refuses at once, and at 400 rounding does.
  rcases h.eq_or_lt with heq | hlt
  · rw [ofDecimal_eq_round hdigits heq.symm.le (by omega)]
    refine round_eq_none (scale_snd_ne_zero (by decide) one_ne_zero _ _) ?_
    have hratio := ratio_scale (by decide : 10 ≠ 0) d.digits 1 d.exponent
    unfold ratio at hratio
    have hone : (1 : ℚ) ≤ d.digits := by exact_mod_cast Nat.pos_of_ne_zero hdigits
    rw [hratio, ← heq, Nat.cast_one, div_one]
    have height : (2 : ℚ) ^ (3 : Nat) ≤ 10 := by norm_num
    calc (2 : ℚ) ^ (1025 : Int) ≤ 2 ^ ((3 * 400 : Nat) : Int) :=
          zpow_le_zpow_right₀ (by norm_num) (by norm_num)
      _ = ((2 : ℚ) ^ 3) ^ 400 := by rw [zpow_natCast, pow_mul]
      _ ≤ 10 ^ 400 := pow_le_pow_left₀ (by positivity) height 400
      _ = 1 * ((10 : Nat) : ℚ) ^ ((400 : Nat) : Int) := by
        rw [zpow_natCast, one_mul, Nat.cast_ofNat]
      _ ≤ d.digits * ((10 : Nat) : ℚ) ^ ((400 : Nat) : Int) := by gcongr
  · unfold ofDecimal
    rw [if_neg (by simpa using hdigits), if_pos hlt]

/-- A zero at the end of a decimal may move into its exponent. -/
theorem ofDecimal_shift (negative : Bool) (m : Nat) (e : Int) :
    ofDecimal negative ⟨10 * m, e⟩ = ofDecimal negative ⟨m, e + 1⟩ := by
  -- Zero is zero with any exponent.
  by_cases hm : m = 0
  · rw [hm]
    rfl
  have hm' : 10 * m ≠ 0 := by omega
  -- The upper cutoff may part the two exponents, but there both decimals are beyond all numbers.
  by_cases hhigh : 400 ≤ e
  · rw [ofDecimal_eq_none hm' hhigh, ofDecimal_eq_none hm (by show 400 ≤ e + 1; omega)]
  have hlength := Decimal.length_digitList_mul_ten hm
  -- The lower cutoff counts digits as well, so it does not part the two decimals.
  by_cases hlow : -400 ≤ e + 1 + (Decimal.digitList m).length
  · rw [ofDecimal_eq_round hm' (by show e ≤ 400; omega)
      (by show -400 ≤ e + ((Decimal.digitList (10 * m)).length : Int); omega),
      ofDecimal_eq_round hm (by show e + 1 ≤ 400; omega) hlow]
    refine round_congr (scale_snd_ne_zero (by decide) one_ne_zero _ _)
      (scale_snd_ne_zero (by decide) one_ne_zero _ _) ?_
    have hl := ratio_scale (by decide : 10 ≠ 0) (10 * m) 1 e
    have hr := ratio_scale (by decide : 10 ≠ 0) m 1 (e + 1)
    unfold ratio at hl hr
    rw [hl, hr]
    push_cast
    rw [zpow_add₀ (by norm_num), zpow_one]
    ring
  · unfold ofDecimal
    simp only [beq_iff_eq]
    rw [if_neg hm', if_neg (by omega), if_pos (by omega), if_neg hm, if_neg (by omega),
      if_pos (by omega)]

/-- Leaving out zeros does not change what a decimal is read as. -/
theorem ofDecimal_strip (negative : Bool) (d : Decimal) :
    ofDecimal negative d.strip = ofDecimal negative d := by
  unfold Decimal.strip
  generalize (Decimal.digitList d.digits).length = fuel
  induction fuel generalizing d with
  | zero => rfl
  | succ fuel ih =>
    rw [Decimal.stripZeros]
    split
    · next h =>
      simp only [Bool.and_eq_true, beq_iff_eq, bne_iff_ne] at h
      have hten : 10 * (d.digits / 10) = d.digits := by omega
      rw [ih, ← ofDecimal_shift, hten]
    · rfl

/-- A power of ten is below a power of five with half as much again in the exponent. -/
theorem ten_pow_le_five_pow {j c : Nat} (h : j ≤ 2 * c) : Nat.pow 10 j ≤ Nat.pow 5 (j + c) := by
  simp only [Nat.pow_eq]
  calc 10 ^ j = 5 ^ j * 2 ^ j := by rw [← Nat.mul_pow]
    _ ≤ 5 ^ j * 2 ^ (2 * c) := Nat.mul_le_mul_left _ (Nat.pow_le_pow_right (by decide) h)
    _ = 5 ^ j * (2 ^ 2) ^ c := by rw [Nat.pow_mul]
    _ ≤ 5 ^ j * 5 ^ c := Nat.mul_le_mul_left _ (Nat.pow_le_pow_left (by decide) c)
    _ = 5 ^ (j + c) := by rw [Nat.pow_add]

/-- The digits of a multiple of a power of five are not many fewer than the power. -/
theorem length_digitList_mul_five_pow {m k : Nat} (hm : m ≠ 0) (hk : k ≤ 1074) :
    k ≤ (Decimal.digitList (m * Nat.pow 5 k)).length + 400 := by
  by_cases hsmall : k ≤ 400
  · omega
  obtain ⟨j, rfl⟩ : ∃ j, k = j + 401 := ⟨k - 401, by omega⟩
  have hpow : Nat.pow 10 j ≤ m * Nat.pow 5 (j + 401) :=
    (ten_pow_le_five_pow (by omega)).trans (Nat.le_mul_of_pos_left _ (Nat.pos_of_ne_zero hm))
  have hlt := Decimal.lt_length_digitList hpow
  omega

/-- A number written out in full is read back. -/
theorem ofDecimal_exactDecimal {x : Binary64} (hx : x.significand ≠ 0) :
    ofDecimal x.negative x.exactDecimal = some x := by
  obtain ⟨-, hlow, hhigh, -⟩ := x.canonical
  unfold exactDecimal
  -- With a negative exponent the significand is scaled by fives, so as to divide by tens.
  split
  · next hneg =>
    obtain ⟨k, hk⟩ := Int.eq_ofNat_of_zero_le (by omega : 0 ≤ -x.exponent)
    have he : x.exponent = -(k : Int) := by omega
    rw [hk, Int.toNat_natCast]
    have hfive : 0 < Nat.pow 5 k := Nat.pow_pos (by decide)
    have hdigits : x.significand * Nat.pow 5 k ≠ 0 := Nat.mul_ne_zero hx hfive.ne'
    have hlength := length_digitList_mul_five_pow hx (by omega : k ≤ 1074)
    rw [ofDecimal_eq_round hdigits (by show x.exponent ≤ 400; omega)
      (by show -400 ≤ x.exponent + ((Decimal.digitList (x.significand * Nat.pow 5 k)).length : Int)
          omega)]
    refine round_eq_some hx (scale_snd_ne_zero (by decide) one_ne_zero _ _) ?_
    have hratio := ratio_scale (by decide : 10 ≠ 0) (x.significand * Nat.pow 5 k) 1 x.exponent
    unfold ratio at hratio
    rw [hratio, he, zpow_neg, zpow_neg, zpow_natCast, zpow_natCast, Nat.pow_eq]
    have hten : ((10 : Nat) : ℚ) ^ k = 5 ^ k * 2 ^ k := by
      rw [← mul_pow]
      norm_num
    rw [hten]
    push_cast
    field_simp
  -- Otherwise the number is whole, and written with all its digits.
  · obtain ⟨k, hk⟩ := Int.eq_ofNat_of_zero_le (by omega : 0 ≤ x.exponent)
    rw [hk, Int.toNat_natCast]
    have htwo : 0 < Nat.pow 2 k := Nat.pow_pos (by decide)
    have hdigits : x.significand * Nat.pow 2 k ≠ 0 := Nat.mul_ne_zero hx htwo.ne'
    rw [ofDecimal_eq_round hdigits (by show (0 : Int) ≤ 400; omega)
      (by show _ ≤ (0 : Int) + _; omega)]
    refine round_eq_some hx (scale_snd_ne_zero (by decide) one_ne_zero _ _) ?_
    have hratio := ratio_scale (by decide : 10 ≠ 0) (x.significand * Nat.pow 2 k) 1 0
    unfold ratio at hratio
    rw [hratio, hk, zpow_natCast, zpow_zero, Nat.pow_eq]
    push_cast
    ring

/-- A decimal of a number that is chosen next to it is read back. -/
theorem ofDecimal_nearestAt? {x : Binary64} {e : Int} {d : Decimal} (h : nearestAt? x e = some d) :
    ofDecimal x.negative d = some x := by
  have hback : ∀ d, readsBack x d = true → ofDecimal x.negative d = some x := by
    intro d hd
    exact beq_iff_eq.mp hd
  unfold nearestAt? at h
  simp only at h
  split at h
  · next hbelow habove =>
    cases h
    split
    · exact hback _ hbelow
    · exact hback _ habove
  · next hbelow _ =>
    cases h
    exact hback _ hbelow
  · next _ habove =>
    cases h
    exact hback _ habove
  · cases h

/-- The shortest decimal of a number is read back. -/
theorem ofDecimal_shortest {x : Binary64} (hx : x.significand ≠ 0) :
    ofDecimal x.negative x.shortest = some x := by
  unfold shortest
  rw [ofDecimal_strip]
  generalize hfound : List.findSome? _ _ = found
  -- The full decimal stands behind the tries, each of which was checked.
  cases found with
  | none => exact ofDecimal_exactDecimal hx
  | some d =>
    obtain ⟨n, -, hn⟩ := List.exists_of_findSome?_eq_some hfound
    exact ofDecimal_nearestAt? hn

end TextAdventure.Binary64
