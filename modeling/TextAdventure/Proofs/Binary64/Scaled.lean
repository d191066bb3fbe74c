import TextAdventure.Proofs.Binary64.Order

/-!
# Rounding at every step stays in bounds

`Binary64.ofScaled` rounds the digits of a decimal, then a power of ten, and then their product or
quotient. Each step keeps the order, so it is enough to follow one decimal for each exponent, the
greatest (`greatestDigits`), and see that it ends in a number. Division makes numbers smaller, and a
product stays in bounds if the decimal itself is not beyond what is rounded to a number below the
largest one (`exists_ofScaled`). The shortest decimal of every number but the largest is such a
decimal (`value_le_limit`), and that of the largest is known (`shortest_largest`).

Digits of up to 53 bits and the powers of ten up to `10 ^ 22` are numbers of the format, so with
these only the last step rounds, and the result is the nearest number (`ofScaled_of_ofDecimal`).
-/

namespace TextAdventure

/-- The number that a decimal stands for. -/
def Decimal.value (d : Decimal) : ℚ := d.digits * 10 ^ d.exponent

namespace Binary64

/-- Only zero has no significand, and its exponent is the least. -/
theorem eq_zero {x : Binary64} (hx : x.significand = 0) : x = zero x.negative := by
  obtain ⟨negative, significand, exponent, hm, hlow, hhigh, hnormal⟩ := x
  cases hx
  obtain rfl : exponent = -1074 := hnormal.resolve_left (by decide)
  rfl

/-- A number is its own rounding, with either sign. -/
theorem round_quotient (x : Binary64) :
    round x.negative x.quotient.1 x.quotient.2 = some x := by
  by_cases hx : x.significand = 0
  · rw [eq_zero hx]
    rfl
  · refine round_eq_some hx x.quotient_snd_ne_zero ?_
    exact x.ratio_quotient

/-- What is not beyond a number can be rounded. -/
theorem exists_round_of_le_magnitude (negative : Bool) {num den : Nat} {y : Binary64}
    (hden : den ≠ 0) (h : (num : ℚ) / den ≤ y.magnitude) :
    ∃ x, round negative num den = some x ∧ x.magnitude ≤ y.magnitude :=
  exists_round_of_le negative hden y.quotient_snd_ne_zero (h.trans_eq y.ratio_quotient.symm)
    y.round_quotient

/-! ### Powers of ten -/

/-- A greater power of ten has no smaller nearest number. -/
theorem tenPower_mono {m n : Nat} (hmn : m ≤ n) {q : Binary64} (hq : tenPower n = some q) :
    ∃ p, tenPower m = some p ∧ p.magnitude ≤ q.magnitude := by
  refine exists_round_of_le _ one_ne_zero one_ne_zero ?_ hq
  have hle : Nat.pow 10 m ≤ Nat.pow 10 n := Nat.pow_le_pow_right (by decide) hmn
  rw [Nat.cast_one, div_one, div_one]
  exact_mod_cast hle

/-- The powers of ten up to `10 ^ 308` have a nearest number, and it is never smaller than one. -/
theorem exists_tenPower {n : Nat} (hn : n ≤ 308) : ∃ p, tenPower n = some p ∧ 1 ≤ p.magnitude := by
  have hlast : (tenPower 308).isSome = true := by decide +kernel
  obtain ⟨y, hy⟩ := Option.isSome_iff_exists.mp hlast
  obtain ⟨p, hp, -⟩ := tenPower_mono hn hy
  -- One is a number of the format, so nothing above it is rounded below it.
  have hone : tenPower 0 = some ⟨false, Nat.pow 2 52, -52, by decide⟩ := by decide +kernel
  obtain ⟨x, hx, hxp⟩ := tenPower_mono (Nat.zero_le n) hp
  obtain rfl := Option.some.inj (hone.symm.trans hx)
  refine ⟨p, hp, le_trans (le_of_eq ?_) hxp⟩
  unfold magnitude
  simp only [Nat.pow_eq]
  norm_num

/-! ### Products and quotients -/

variable {x y z : Binary64} {m n : Nat}

/-- The fraction of a product is the product of the numbers. -/
theorem magnitude_mul (x y : Binary64) :
    ((x.quotient.1 * y.quotient.1 : Nat) : ℚ) / (x.quotient.2 * y.quotient.2 : Nat) =
      x.magnitude * y.magnitude := by
  rw [← x.ratio_quotient, ← y.ratio_quotient]
  unfold ratio
  push_cast
  rw [div_mul_div_comm]

/-- Where a number can be multiplied by a power of ten, a smaller one can be multiplied by a smaller
power. -/
theorem exists_timesTenPower_of_le (hxy : x.magnitude ≤ y.magnitude) (hmn : m ≤ n)
    (hz : y.timesTenPower n = some z) : ∃ w, x.timesTenPower m = some w := by
  obtain ⟨q, hq, hz⟩ := Option.bind_eq_some_iff.mp hz
  obtain ⟨p, hp, hpq⟩ := tenPower_mono hmn hq
  have hx := Nat.mul_ne_zero x.quotient_snd_ne_zero p.quotient_snd_ne_zero
  have hy := Nat.mul_ne_zero y.quotient_snd_ne_zero q.quotient_snd_ne_zero
  have hle : ((x.quotient.1 * p.quotient.1 : Nat) : ℚ) / (x.quotient.2 * p.quotient.2 : Nat) ≤
      (y.quotient.1 * q.quotient.1 : Nat) / (y.quotient.2 * q.quotient.2 : Nat) := by
    rw [magnitude_mul, magnitude_mul]
    exact mul_le_mul hxy hpq p.magnitude_nonneg y.magnitude_nonneg
  obtain ⟨w, hw, -⟩ := exists_round_of_le x.negative hx hy hle hz
  refine ⟨w, ?_⟩
  unfold timesTenPower
  rw [hp]
  exact hw

/-- The fraction of a quotient is the quotient of the numbers. -/
theorem magnitude_div (x y : Binary64) :
    ((x.quotient.1 * y.quotient.2 : Nat) : ℚ) / (x.quotient.2 * y.quotient.1 : Nat) =
      x.magnitude / y.magnitude := by
  rw [← x.ratio_quotient, ← y.ratio_quotient]
  unfold ratio
  push_cast
  rw [div_div_div_eq]

/-- A number other than zero can be divided by. -/
theorem quotient_fst_ne_zero (h : x.magnitude ≠ 0) : x.quotient.1 ≠ 0 := by
  intro hzero
  have hratio := x.ratio_quotient
  unfold ratio at hratio
  rw [hzero, Nat.cast_zero, zero_div] at hratio
  exact h hratio.symm

/-- Every number can be divided by a power of ten up to `10 ^ 308`. -/
theorem exists_overTenPower (x : Binary64) (hn : n ≤ 308) : ∃ w, x.overTenPower n = some w := by
  -- The power of ten is at least one, so it is not zero and dividing by it makes nothing larger.
  obtain ⟨p, hp, hone⟩ := exists_tenPower hn
  have hden := Nat.mul_ne_zero x.quotient_snd_ne_zero (quotient_fst_ne_zero (x := p) (by linarith))
  have hle : ((x.quotient.1 * p.quotient.2 : Nat) : ℚ) / (x.quotient.2 * p.quotient.1 : Nat) ≤
      x.magnitude := by
    rw [magnitude_div]
    exact div_le_self x.magnitude_nonneg hone
  -- What does not exceed a number of the format is rounded to one.
  obtain ⟨w, hw, -⟩ := exists_round_of_le_magnitude x.negative hden hle
  refine ⟨w, ?_⟩
  unfold overTenPower
  rw [hp]
  exact hw

/-- Every number can be divided by every power of ten, in steps. -/
theorem exists_shrink (x : Binary64) (n : Nat) : ∃ w, x.shrink n = some w := by
  fun_induction shrink x n with
  | case1 x n hn => exact x.exists_overTenPower hn
  | case2 x n _ _ => exact ⟨x, rfl⟩
  | case3 x n _ _ ih =>
    obtain ⟨y, hy⟩ := x.exists_overTenPower (le_refl 308)
    rw [hy]
    exact ih y

/-! ### Decimals -/

/-- The middle between the two greatest significands, with an exponent. -/
def middle (e : Nat) : Nat := (Nat.pow 2 54 - 3) * Nat.pow 2 e

/-- The middle between the two greatest significands as a number. -/
theorem cast_middle (e : Nat) : (middle e : ℚ) = (2 ^ (54 : Int) - 3) * 2 ^ (e : Int) := by
  have hthree : 3 ≤ Nat.pow 2 54 := by decide
  unfold middle
  rw [Nat.cast_mul, Nat.cast_sub hthree, Nat.pow_eq, Nat.pow_eq, Nat.cast_pow, Nat.cast_pow,
    zpow_natCast, zpow_ofNat, Nat.cast_ofNat, Nat.cast_ofNat]

/-- The middle between the largest number and the one below it. What is not beyond it is rounded to
a number below the largest one. -/
def limit : Nat := middle 970

/-- The greatest digits of 64 bits that make a decimal within the limit. -/
def greatestDigits (n : Nat) : Nat := min (UInt64.size - 1) (limit / Nat.pow 10 n)

/-- The greatest digits are digits of 64 bits. -/
theorem greatestDigits_le (n : Nat) : greatestDigits n ≤ UInt64.size - 1 := min_le_left _ _

/-- Digits that make a decimal within the limit are not beyond the greatest. -/
theorem le_greatestDigits {digits : Nat} (hdigits : digits < UInt64.size)
    (h : (digits : ℚ) * 10 ^ n ≤ limit) : digits ≤ greatestDigits n := by
  have hle : digits * Nat.pow 10 n ≤ limit := by
    rw [Nat.pow_eq]
    exact_mod_cast h
  exact le_min (Nat.le_sub_one_of_lt hdigits)
    ((Nat.le_div_iff_mul_le (Nat.pow_pos (by decide))).mpr hle)

/-- Only zero is within the limit times a power of ten beyond it. -/
theorem greatestDigits_eq_zero {k : Nat} (hk : limit < Nat.pow 10 k) (hn : k ≤ n) :
    greatestDigits n = 0 := by
  have hpow : Nat.pow 10 k ≤ Nat.pow 10 n := Nat.pow_le_pow_right (by decide) hn
  unfold greatestDigits
  rw [Nat.div_eq_of_lt (hk.trans_le hpow), Nat.min_zero]

/-- Digits of 64 bits can be rounded. -/
theorem exists_round_digits (negative : Bool) {digits : Nat} (h : digits < UInt64.size) :
    ∃ x, round negative digits 1 = some x := by
  have hlast : (round false UInt64.size 1).isSome = true := by decide +kernel
  obtain ⟨y, hy⟩ := Option.isSome_iff_exists.mp hlast
  have hle : (digits : ℚ) / (1 : Nat) ≤ (UInt64.size : Nat) / (1 : Nat) := by
    rw [Nat.cast_one, div_one, div_one]
    exact_mod_cast h.le
  obtain ⟨x, hx, -⟩ := exists_round_of_le negative one_ne_zero one_ne_zero hle hy
  exact ⟨x, hx⟩

/-- The greatest digits can be multiplied by their power of ten. For powers below `10 ^ 288` the
digits themselves are bounded, and not by the limit. -/
theorem exists_scaled_greatestDigits (hn : n ≤ 308) : ∃ y z, ∃ m, n ≤ m ∧
    round false (greatestDigits m) 1 = some y ∧ y.timesTenPower m = some z ∧
      greatestDigits n ≤ greatestDigits m := by
  have hall : ∀ k : Fin 21, ((round false (greatestDigits (288 + k)) 1).bind
      fun x => x.timesTenPower (288 + k)).isSome = true := by decide +kernel
  have hscaled : ∀ m, 288 ≤ m → m ≤ 308 → ∃ y z,
      round false (greatestDigits m) 1 = some y ∧ y.timesTenPower m = some z := by
    intro m hlow hhigh
    have hsome := hall ⟨m - 288, by omega⟩
    rw [show 288 + (m - 288) = m by omega] at hsome
    obtain ⟨z, hz⟩ := Option.isSome_iff_exists.mp hsome
    obtain ⟨y, hy, hz⟩ := Option.bind_eq_some_iff.mp hz
    exact ⟨y, z, hy, hz⟩
  by_cases hlow : 288 ≤ n
  · obtain ⟨y, z, hy, hz⟩ := hscaled n hlow hn
    exact ⟨y, z, n, le_rfl, hy, hz, le_rfl⟩
  · obtain ⟨y, z, hy, hz⟩ := hscaled 288 le_rfl (by omega)
    have hfull : UInt64.size - 1 ≤ greatestDigits 288 := by decide +kernel
    exact ⟨y, z, 288, by omega, hy, hz, (greatestDigits_le n).trans hfull⟩

/-- A decimal with digits of 64 bits that is not beyond the limit is read as some number. -/
theorem exists_ofScaled (negative : Bool) {digits : Nat} {e : Int} (hdigits : digits < UInt64.size)
    (h : (digits : ℚ) * 10 ^ e ≤ limit) : ∃ x, ofScaled negative digits e = some x := by
  obtain ⟨x, hx⟩ := exists_round_digits negative hdigits
  unfold ofScaled
  rw [hx, Option.bind_some]
  split_ifs with hneg hhigh hzero
  · exact x.exists_shrink _
  · obtain ⟨n, rfl⟩ := Int.eq_ofNat_of_zero_le (by omega : 0 ≤ e)
    rw [zpow_natCast] at h
    obtain ⟨y, z, m, hnm, hy, hz, hgreatest⟩ := exists_scaled_greatestDigits (n := n) (by omega)
    -- The digits are not beyond the greatest, and neither is what they are rounded to.
    have hle : (digits : ℚ) / (1 : Nat) ≤ (greatestDigits m : Nat) / (1 : Nat) := by
      rw [Nat.cast_one, div_one, div_one]
      exact_mod_cast (le_greatestDigits hdigits h).trans hgreatest
    obtain ⟨x', hx', hxy⟩ := exists_round_of_le _ one_ne_zero one_ne_zero hle hy
    obtain rfl := Option.some.inj (hx.symm.trans hx')
    exact exists_timesTenPower_of_le hxy hnm hz
  · exact ⟨x, rfl⟩
  · -- Beyond `10 ^ 308` only zero is within the limit.
    obtain ⟨n, rfl⟩ := Int.eq_ofNat_of_zero_le (by omega : 0 ≤ e)
    rw [zpow_natCast] at h
    have hnone := greatestDigits_eq_zero (k := 309) (by decide +kernel) (by omega : 309 ≤ n)
    have hdigits : digits = 0 := Nat.le_zero.mp (hnone ▸ le_greatestDigits hdigits h)
    subst hdigits
    refine absurd ?_ hzero
    cases hx
    rfl

/-! ### Shortest decimals -/

/-- The largest number of the format, with a sign. -/
def largest (negative : Bool) : Binary64 := ⟨negative, Nat.pow 2 53 - 1, 971, by decide⟩

/-- What is rounded to a number that is not the largest is within the limit. -/
theorem le_limit_of_round {x : Binary64} {num den : Nat} (hden : den ≠ 0)
    (hx : x ≠ largest x.negative) (h : round x.negative num den = some x) :
    (num : ℚ) / den ≤ limit := by
  refine (le_of_round hden h).trans ?_
  obtain ⟨hm, -, hhigh, -⟩ := x.canonical
  have hlimit : (limit : ℚ) = (2 ^ (54 : Int) - 3) * 2 ^ (970 : Int) := cast_middle 970
  rw [hlimit]
  -- On the coarsest grid the largest significand is missing, on any other one there is room.
  by_cases hlast : x.exponent = 971
  · have hne : x.significand ≠ Nat.pow 2 53 - 1 := by
      intro heq
      obtain ⟨negative, significand, exponent, _⟩ := x
      cases hlast
      cases heq
      exact hx rfl
    have hle : 2 * x.significand + 1 ≤ Nat.pow 2 54 - 3 := by
      have hpow : Nat.pow 2 54 = 2 * Nat.pow 2 53 := rfl
      omega
    have hcast : (2 * (x.significand : ℚ) + 1) ≤ 2 ^ (54 : Int) - 3 := by
      have hcast : ((2 * x.significand + 1 : Nat) : ℚ) ≤ (Nat.pow 2 54 - 3 : Nat) := by
        exact_mod_cast hle
      simp only [Nat.pow_eq] at hcast
      norm_num at hcast ⊢
      linarith
    rw [hlast]
    exact mul_le_mul_of_nonneg_right hcast (by positivity)
  -- There the significand may be the largest, because the step is at most half as wide.
  · have hcast : (2 * (x.significand : ℚ) + 1) ≤ 2 ^ (54 : Int) := by
      have hle : 2 * x.significand + 1 ≤ Nat.pow 2 54 := by
        have hpow : Nat.pow 2 54 = 2 * Nat.pow 2 53 := rfl
        omega
      rw [zpow_ofNat]
      exact_mod_cast hle
    calc (2 * (x.significand : ℚ) + 1) * 2 ^ (x.exponent - 1)
        ≤ 2 ^ (54 : Int) * 2 ^ (x.exponent - 1) := by gcongr
      _ ≤ 2 ^ (54 : Int) * 2 ^ (969 : Int) := by
        have hexp : x.exponent - 1 ≤ 969 := by omega
        gcongr
        norm_num
      _ ≤ (2 ^ (54 : Int) - 3) * 2 * 2 ^ (969 : Int) := by
        have hroom : (2 : ℚ) ^ (54 : Int) ≤ (2 ^ (54 : Int) - 3) * 2 := by norm_num
        gcongr
      _ = (2 ^ (54 : Int) - 3) * 2 ^ (970 : Int) := by
        have hstep : (2 : ℚ) ^ (970 : Int) = 2 * 2 ^ (969 : Int) :=
          zpow_one_add₀ two_ne_zero 969
        rw [hstep, mul_assoc]

/-- A decimal that is read as a number other than zero is rounded. -/
theorem round_of_ofDecimal {x : Binary64} {d : Decimal} (hx : x.significand ≠ 0)
    (h : ofDecimal x.negative d = some x) :
    round x.negative (scale 10 d.digits 1 d.exponent).1 (scale 10 d.digits 1 d.exponent).2 =
      some x := by
  unfold ofDecimal at h
  split_ifs at h with hzero hhigh hlow
  · exact absurd (congrArg significand (Option.some.inj h)).symm hx
  · exact absurd (congrArg significand (Option.some.inj h)).symm hx
  · exact h

/-- A decimal that is read as a number other than the largest is within the limit. -/
theorem value_le_limit {x : Binary64} {d : Decimal} (hx : x.significand ≠ 0)
    (hne : x ≠ largest x.negative) (h : ofDecimal x.negative d = some x) : d.value ≤ limit := by
  have hround := round_of_ofDecimal hx h
  have hle := le_limit_of_round (scale_snd_ne_zero (by decide) one_ne_zero _ _) hne hround
  have hratio := ratio_scale (by decide : 10 ≠ 0) d.digits 1 d.exponent
  unfold ratio at hratio
  rw [hratio, Nat.cast_one, div_one, Nat.cast_ofNat] at hle
  exact hle

/-- The first digit of the largest number stands before 308 others. -/
theorem leadingExponent_largest (negative : Bool) :
    leadingExponent (largest negative).quotient.1 (largest negative).quotient.2 = 308 := by
  have hall : ∀ s : Bool, Nat.pow 10 708 ≤
      (largest s).quotient.1 * Nat.pow 10 400 / (largest s).quotient.2 ∧
        (largest s).quotient.1 * Nat.pow 10 400 / (largest s).quotient.2 <
          Nat.pow 10 (708 + 1) := by
    decide +kernel
  have hlow := Decimal.lt_length_digitList (hall negative).1
  have hhigh := Decimal.length_digitList_le (hall negative).2
  unfold leadingExponent
  omega

/-- The shortest decimal of the largest number has seventeen digits. -/
theorem shortest_largest (negative : Bool) :
    (largest negative).shortest = ⟨17976931348623157, 292⟩ := by
  have hfound : ∀ s : Bool, (List.range 17).findSome?
      (fun n : Nat => nearestAt? (largest s) (308 - n)) = some ⟨17976931348623157, 292⟩ := by
    decide +kernel
  have hstrip : (⟨17976931348623157, 292⟩ : Decimal).strip = ⟨17976931348623157, 292⟩ := by
    decide +kernel
  unfold shortest
  simp only [leadingExponent_largest, hfound, Option.getD_some, hstrip]

/-! ### Few digits -/

/-- A whole number of at most 53 bits is a number of the format. -/
theorem exists_round_eq (negative : Bool) {digits : Nat} (hdigits : digits < Nat.pow 2 53) :
    ∃ x, round negative digits 1 = some x ∧ x.negative = negative ∧ x.magnitude = digits := by
  by_cases hzero : digits = 0
  · subst hzero
    refine ⟨zero negative, rfl, rfl, ?_⟩
    unfold magnitude zero
    rw [Nat.cast_zero, zero_mul]
  obtain ⟨-, -, hnormal⟩ := onGrid_gridExponent hzero one_ne_zero
  have hcast : (digits : ℚ) < 2 ^ (53 : Int) := by exact_mod_cast hdigits
  -- Its grid is not coarser than that of the whole numbers, so it has a place there of its own.
  have hfine : gridExponent digits 1 ≤ 0 := by
    by_cases hleast : gridExponent digits 1 = -1074
    · omega
    · have hle := hnormal hleast
      rw [Nat.cast_one, div_one] at hle
      have hlt := le_of_two_zpow_lt (hle.trans_lt hcast)
      omega
  have hplace : gridValue digits 1 = digits := by
    have hsteps : ∀ a : Nat, divideToEven a 1 = a := by
      intro a
      unfold divideToEven
      simp [Nat.mod_one]
    obtain ⟨k, hk⟩ := Int.eq_ofNat_of_zero_le (by omega : 0 ≤ -gridExponent digits 1)
    have he : gridExponent digits 1 = -(k : Int) := by omega
    unfold gridValue gridSteps scale
    rw [he, neg_neg, if_neg (by omega), Int.toNat_natCast, hsteps, Nat.cast_mul, Nat.pow_eq,
      Nat.cast_pow, Nat.cast_ofNat, zpow_neg, zpow_natCast]
    field_simp
  have hbound : gridValue digits 1 < 2 ^ (1024 : Int) := by
    rw [hplace]
    exact hcast.trans (zpow_lt_zpow_right₀ (by norm_num) (by norm_num))
  obtain ⟨x, hx⟩ := exists_round_of_gridValue_lt negative hzero one_ne_zero hbound
  exact ⟨x, hx, negative_of_round hx, (magnitude_of_round hzero one_ne_zero hx).1.trans hplace⟩

/-- The powers of ten up to `10 ^ 22` are numbers of the format. -/
theorem exists_tenPower_eq (hn : n ≤ 22) : ∃ p, tenPower n = some p ∧ p.magnitude = 10 ^ n := by
  have hall : ∀ k : Fin 23, (tenPower k).any
      (fun p => p.quotient.1 == Nat.pow 10 k * p.quotient.2) = true := by decide +kernel
  obtain ⟨p, hp, hexact⟩ := (Option.any_eq_true _ _).mp (hall ⟨n, by omega⟩)
  refine ⟨p, hp, ?_⟩
  rw [← p.ratio_quotient, ratio, eq_of_beq hexact, Nat.cast_mul,
    mul_div_cancel_right₀ _ (Nat.cast_ne_zero.mpr p.quotient_snd_ne_zero), Nat.pow_eq, Nat.cast_pow,
    Nat.cast_ofNat]

/-- A decimal with few digits and a small exponent is rounded once, because the digits and the power
of ten are numbers of the format. -/
theorem ofScaled_eq_round (negative : Bool) {digits : Nat} {e : Int}
    (hdigits : digits < Nat.pow 2 53) (he : e.natAbs ≤ 22) : ofScaled negative digits e =
      round negative (scale 10 digits 1 e).1 (scale 10 digits 1 e).2 := by
  obtain ⟨x, hx, rfl, hmagnitude⟩ := exists_round_eq negative hdigits
  obtain ⟨p, hp, hpower⟩ := exists_tenPower_eq he
  have hratio := ratio_scale (by decide : 10 ≠ 0) digits 1 e
  have hsnd := scale_snd_ne_zero (by decide : 10 ≠ 0) one_ne_zero digits e
  rw [Nat.cast_one, div_one, Nat.cast_ofNat] at hratio
  unfold ofScaled
  rw [hx, Option.bind_some, if_pos (by omega : e ≤ 308)]
  -- The first step lost nothing, and the one that is left rounds the decimal itself.
  split_ifs with hneg
  · have hk : (-e).toNat = e.natAbs := by omega
    have hexp : e = -(e.natAbs : Int) := by omega
    have hden := Nat.mul_ne_zero x.quotient_snd_ne_zero
      (quotient_fst_ne_zero (x := p) (by rw [hpower]; positivity))
    unfold shrink overTenPower
    rw [hk, if_pos (by omega), hp]
    refine round_congr hden hsnd ((magnitude_div x p).trans (Eq.trans ?_ hratio.symm))
    rw [hmagnitude, hpower, hexp, zpow_neg, zpow_natCast, Int.natAbs_neg, Int.natAbs_natCast,
      div_eq_mul_inv]
  · have hk : e.toNat = e.natAbs := by omega
    have hexp : e = (e.natAbs : Int) := by omega
    have hden := Nat.mul_ne_zero x.quotient_snd_ne_zero p.quotient_snd_ne_zero
    unfold timesTenPower
    rw [hk, hp]
    refine round_congr hden hsnd ((magnitude_mul x p).trans (Eq.trans ?_ hratio.symm))
    rw [hmagnitude, hpower, hexp, zpow_natCast, Int.natAbs_natCast]

/-- If a decimal with few digits and a small exponent has the value of one that is read as a number,
then rounding at every step gives the same number. -/
theorem ofScaled_of_ofDecimal {x : Binary64} {d : Decimal} (hx : x.significand ≠ 0)
    (h : ofDecimal x.negative d = some x) {digits : Nat} {e : Int}
    (hdigits : digits < Nat.pow 2 53) (he : e.natAbs ≤ 22)
    (hvalue : Decimal.value ⟨digits, e⟩ = d.value) : ofScaled x.negative digits e = some x := by
  have hratio := ratio_scale (by decide : 10 ≠ 0) digits 1 e
  have hratio' := ratio_scale (by decide : 10 ≠ 0) d.digits 1 d.exponent
  rw [Nat.cast_one, div_one, Nat.cast_ofNat] at hratio hratio'
  rw [ofScaled_eq_round _ hdigits he, ← round_of_ofDecimal hx h]
  exact round_congr (scale_snd_ne_zero (by decide) one_ne_zero _ _)
    (scale_snd_ne_zero (by decide) one_ne_zero _ _) (hratio.trans (hvalue.trans hratio'.symm))

end Binary64

end TextAdventure
