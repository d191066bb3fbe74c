import TextAdventure.Proofs.Binary64

/-!
# Rounding keeps the order

A number that is rounded goes to one of its neighbours on the grid (`Binary64.gridValue`), so a
smaller number never goes beyond where a greater one goes (`gridValue_mono`). The numbers of the
format are bounded, and a number is rounded at all if its place on the grid is below the bound
(`exists_round_of_gridValue_lt`). Hence what is below a number that can be rounded can be rounded
too, and does not become greater (`exists_round_of_le`).
-/

namespace TextAdventure.Binary64

/-- The absolute value. -/
def magnitude (x : Binary64) : ℚ := x.significand * 2 ^ x.exponent

/-- An absolute value is not negative. -/
theorem magnitude_nonneg (x : Binary64) : 0 ≤ x.magnitude := by
  unfold magnitude
  positivity

/-- The quotient of a number is its absolute value. -/
theorem ratio_quotient (x : Binary64) : ratio x.quotient = x.magnitude := by
  unfold quotient magnitude
  rw [ratio_scale two_ne_zero, Nat.cast_one, div_one, Nat.cast_ofNat]

/-- The quotient of a number has a denominator. -/
theorem quotient_snd_ne_zero (x : Binary64) : x.quotient.2 ≠ 0 :=
  scale_snd_ne_zero two_ne_zero one_ne_zero _ _

/-! ### Whole numbers -/

/-- A quotient is rounded to its whole part or to the next whole number. -/
theorem divideToEven_bounds (a b : Nat) :
    a / b ≤ divideToEven a b ∧ divideToEven a b ≤ a / b + 1 := by
  unfold divideToEven
  dsimp only
  split_ifs <;> omega

/-- A quotient is rounded to a whole number that is no further from it than one half. -/
theorem two_mul_le_divideToEven {a b : Nat} (hb : b ≠ 0) :
    2 * a ≤ (2 * divideToEven a b + 1) * b := by
  have hdiv := Nat.div_add_mod a b
  unfold divideToEven
  dsimp only
  split_ifs with h
  · have hr : 2 * (a % b) ≤ b := by
      simp only [Bool.or_eq_true, Bool.and_eq_true, decide_eq_true_eq, beq_iff_eq] at h
      omega
    calc 2 * a = 2 * (b * (a / b)) + 2 * (a % b) := by omega
      _ ≤ 2 * (b * (a / b)) + b := by omega
      _ = (2 * (a / b) + 1) * b := by ring
  · have hr : a % b < b := Nat.mod_lt a (Nat.pos_of_ne_zero hb)
    calc 2 * a = 2 * (b * (a / b)) + 2 * (a % b) := by omega
      _ ≤ 2 * (b * (a / b)) + 3 * b := by omega
      _ = (2 * (a / b + 1) + 1) * b := by ring

/-- A greater quotient is not rounded to a smaller whole number. -/
theorem divideToEven_mono {a b a' b' : Nat} (hb : b ≠ 0) (hb' : b' ≠ 0) (h : a * b' ≤ a' * b) :
    divideToEven a b ≤ divideToEven a' b' := by
  have hbpos := Nat.pos_of_ne_zero hb
  have hbpos' := Nat.pos_of_ne_zero hb'
  have hdiv : a / b ≤ a' / b' := by
    rw [← Nat.mul_div_mul_right a b hbpos', ← Nat.mul_div_mul_right a' b' hbpos, mul_comm b' b]
    exact Nat.div_le_div_right h
  rcases hdiv.lt_or_eq with hlt | heq
  · -- Between different whole parts there is room for rounding up.
    exact (divideToEven_bounds a b).2.trans (Nat.succ_le_of_lt hlt |>.trans
      (divideToEven_bounds a' b').1)
  · -- With the same whole part it is the remainders that are compared.
    have hmod : a % b * b' ≤ a' % b' * b := by
      have hsplit := Nat.div_add_mod a b
      have hsplit' := Nat.div_add_mod a' b'
      have hcross : b * (a / b) * b' + a % b * b' ≤ b * (a / b) * b' + a' % b' * b := by
        calc b * (a / b) * b' + a % b * b' = a * b' := by rw [← Nat.add_mul, hsplit]
          _ ≤ a' * b := h
          _ = (b' * (a' / b') + a' % b') * b := by rw [hsplit']
          _ = b * (a / b) * b' + a' % b' * b := by rw [heq]; ring
      exact Nat.le_of_add_le_add_left hcross
    -- Whoever rounds up is at the middle at least, and so is whoever is beyond.
    have hup : b ≤ 2 * (a % b) → b' ≤ 2 * (a' % b') := by
      intro hle
      refine Nat.le_of_mul_le_mul_left ?_ hbpos
      calc b * b' ≤ 2 * (a % b) * b' := Nat.mul_le_mul_right b' hle
        _ = 2 * (a % b * b') := by ring
        _ ≤ 2 * (a' % b' * b) := by omega
        _ = b * (2 * (a' % b')) := by ring
    have htie : 2 * (a' % b') = b' → 2 * (a % b) ≤ b := by
      intro hmiddle
      refine Nat.le_of_mul_le_mul_right ?_ hbpos'
      calc 2 * (a % b) * b' = 2 * (a % b * b') := by ring
        _ ≤ 2 * (a' % b' * b) := by omega
        _ = 2 * (a' % b') * b := by ring
        _ = b * b' := by rw [hmiddle, mul_comm]
    unfold divideToEven
    simp only [Bool.or_eq_true, Bool.and_eq_true, decide_eq_true_eq, beq_iff_eq]
    rw [heq]
    split_ifs <;> omega

/-! ### Places on the grid -/

/-- The whole number to which a quotient is rounded on a grid. -/
def gridSteps (num den : Nat) (e : Int) : Nat :=
  divideToEven (scale 2 num den (-e)).1 (scale 2 num den (-e)).2

/-- The number to which a quotient is rounded, whether or not it is a number of the format. -/
def gridValue (num den : Nat) : ℚ :=
  gridSteps num den (gridExponent num den) * 2 ^ gridExponent num den

variable {num den num' den' : Nat}

/-- The numerator and the denominator are those of the number of steps on a grid. -/
theorem ratio_gridSteps (num den : Nat) (e : Int) :
    ratio (scale 2 num den (-e)) * 2 ^ e = (num : ℚ) / den := by
  rw [ratio_scale two_ne_zero, mul_assoc, Nat.cast_ofNat, ← zpow_add₀ (by norm_num),
    neg_add_cancel, zpow_zero, mul_one]

/-- On one grid, a greater quotient is not rounded to fewer steps. -/
theorem gridSteps_mono (hden : den ≠ 0) (hden' : den' ≠ 0) (e : Int)
    (h : (num : ℚ) / den ≤ num' / den') : gridSteps num den e ≤ gridSteps num' den' e := by
  have hs := scale_snd_ne_zero two_ne_zero hden num (-e)
  have hs' := scale_snd_ne_zero two_ne_zero hden' num' (-e)
  have hpos : (0 : ℚ) < 2 ^ e := by positivity
  refine divideToEven_mono hs hs' ?_
  rw [← ratio_gridSteps num den e, ← ratio_gridSteps num' den' e, mul_le_mul_iff_left₀ hpos] at h
  unfold ratio at h
  have hle := (div_le_div_iff₀ (by exact_mod_cast Nat.pos_of_ne_zero hs)
    (by exact_mod_cast Nat.pos_of_ne_zero hs')).mp h
  exact_mod_cast hle

/-- A quotient that is not below a whole number of steps is not rounded to fewer of them. -/
theorem le_gridSteps (hden : den ≠ 0) {e : Int} {n : Nat} (h : (n : ℚ) * 2 ^ e ≤ num / den) :
    n ≤ gridSteps num den e := by
  have hs := scale_snd_ne_zero two_ne_zero hden num (-e)
  have hpos : (0 : ℚ) < 2 ^ e := by positivity
  rw [← ratio_gridSteps num den e, mul_le_mul_iff_left₀ hpos] at h
  unfold ratio at h
  rw [le_div_iff₀ (by exact_mod_cast Nat.pos_of_ne_zero hs)] at h
  refine le_trans ?_ (divideToEven_bounds _ _).1
  rw [Nat.le_div_iff_mul_le (Nat.pos_of_ne_zero hs)]
  exact_mod_cast h

/-- A quotient below a whole number of steps is not rounded to more of them. -/
theorem gridSteps_le (hden : den ≠ 0) {e : Int} {n : Nat} (h : (num : ℚ) / den < n * 2 ^ e) :
    gridSteps num den e ≤ n := by
  have hs := scale_snd_ne_zero two_ne_zero hden num (-e)
  have hpos : (0 : ℚ) < 2 ^ e := by positivity
  rw [← ratio_gridSteps num den e, mul_lt_mul_iff_left₀ hpos] at h
  unfold ratio at h
  rw [div_lt_iff₀ (by exact_mod_cast Nat.pos_of_ne_zero hs)] at h
  refine (divideToEven_bounds _ _).2.trans (Nat.succ_le_of_lt ?_)
  rw [Nat.div_lt_iff_lt_mul (Nat.pos_of_ne_zero hs)]
  exact_mod_cast h

/-- The steps on the grid of a number are those of a significand, or one more. -/
theorem gridSteps_bounds (hnum : num ≠ 0) (hden : den ≠ 0) :
    gridSteps num den (gridExponent num den) ≤ Nat.pow 2 53 ∧
      (gridExponent num den ≠ -1074 →
        Nat.pow 2 52 ≤ gridSteps num den (gridExponent num den)) := by
  obtain ⟨-, hlt, hle⟩ := onGrid_gridExponent hnum hden
  have htwo : (2 : ℚ) ≠ 0 := by norm_num
  refine ⟨gridSteps_le hden ?_, fun hne => le_gridSteps hden ?_⟩
  · rw [Nat.pow_eq, Nat.cast_pow, Nat.cast_ofNat, ← zpow_natCast, ← zpow_add₀ htwo, add_comm]
    exact hlt
  · rw [Nat.pow_eq, Nat.cast_pow, Nat.cast_ofNat, ← zpow_natCast, ← zpow_add₀ htwo, add_comm]
    exact hle hne

/-- A greater quotient does not come to a smaller place. -/
theorem gridValue_mono (hnum : num ≠ 0) (hden : den ≠ 0) (hnum' : num' ≠ 0) (hden' : den' ≠ 0)
    (h : (num : ℚ) / den ≤ num' / den') : gridValue num den ≤ gridValue num' den' := by
  have hgrid := onGrid_gridExponent hnum hden
  have hgrid' := onGrid_gridExponent hnum' hden'
  obtain ⟨hsteps, -⟩ := gridSteps_bounds hnum hden
  obtain ⟨-, hsteps'⟩ := gridSteps_bounds hnum' hden'
  have htwo : (2 : ℚ) ≠ 0 := by norm_num
  unfold gridValue
  generalize gridExponent num den = e at *
  generalize gridExponent num' den' = e' at *
  rcases lt_trichotomy e e' with hlt | rfl | hgt
  · -- Between two grids lies the power of two at which the coarser one begins.
    have hnext := hsteps' (by have hleast := hgrid.1; omega)
    have hcast : (gridSteps num den e : ℚ) ≤ 2 ^ (53 : Int) := by exact_mod_cast hsteps
    have hcast' : (2 : ℚ) ^ (52 : Int) ≤ gridSteps num' den' e' := by exact_mod_cast hnext
    calc (gridSteps num den e : ℚ) * 2 ^ e ≤ 2 ^ (53 : Int) * 2 ^ e := by gcongr
      _ = 2 ^ (53 + e) := by rw [zpow_add₀ htwo]
      _ ≤ 2 ^ (52 + e') := zpow_le_zpow_right₀ (by norm_num) (by omega)
      _ = 2 ^ (52 : Int) * 2 ^ e' := by rw [zpow_add₀ htwo]
      _ ≤ gridSteps num' den' e' * 2 ^ e' := by gcongr
  · have hle : (gridSteps num den e : ℚ) ≤ gridSteps num' den' e := by
      exact_mod_cast gridSteps_mono hden hden' e h
    gcongr
  · -- The smaller number would lie beyond the bound of the finer grid.
    have hleast := hgrid'.1
    have hpow := le_of_two_zpow_lt
      ((hgrid.2.2 (by omega)).trans_lt (h.trans_lt hgrid'.2.1))
    omega

/-! ### Numbers of the format -/

/-- Numbers are below a power of two. -/
theorem magnitude_lt (x : Binary64) : x.magnitude < 2 ^ (1024 : Int) := by
  obtain ⟨hm, -, hhigh, -⟩ := x.canonical
  have hcast : (x.significand : ℚ) < 2 ^ (53 : Int) := by exact_mod_cast hm
  unfold magnitude
  calc (x.significand : ℚ) * 2 ^ x.exponent < 2 ^ (53 : Int) * 2 ^ x.exponent := by gcongr
    _ = 2 ^ (53 + x.exponent) := by rw [zpow_add₀ (by norm_num)]
    _ ≤ 2 ^ (1024 : Int) := zpow_le_zpow_right₀ (by norm_num) (by omega)

/-- A quotient is rounded by its steps on the grid. -/
theorem round_eq (negative : Bool) (hnum : num ≠ 0) : round negative num den =
    if gridSteps num den (gridExponent num den) < Nat.pow 2 53 then
      ofParts? negative (gridSteps num den (gridExponent num den)) (gridExponent num den)
    else ofParts? negative (Nat.pow 2 52) (gridExponent num den + 1) := by
  unfold round
  rw [if_neg (by simpa using hnum)]
  rfl

/-- Parts are the parts of the number that has them. -/
theorem ofParts?_eq_some {negative : Bool} {m : Nat} {e : Int} {x : Binary64}
    (h : ofParts? negative m e = some x) : x.significand = m ∧ x.exponent = e := by
  unfold ofParts? at h
  split_ifs at h
  cases h
  exact ⟨rfl, rfl⟩

/-- Rounding keeps the sign. -/
theorem negative_of_round {negative : Bool} {x : Binary64} (h : round negative num den = some x) :
    x.negative = negative := by
  by_cases hnum : num = 0
  · subst hnum
    cases h
    rfl
  rw [round_eq negative hnum] at h
  unfold ofParts? at h
  split_ifs at h
  · cases h
    rfl
  · cases h
    rfl

/-- A number comes to its place on the grid. The grid is that of the result, or finer by one if the
significand was carried over. -/
theorem magnitude_of_round {negative : Bool} {x : Binary64} (hnum : num ≠ 0) (hden : den ≠ 0)
    (h : round negative num den = some x) :
    x.magnitude = gridValue num den ∧ gridExponent num den ≤ x.exponent := by
  obtain ⟨hhigh, -⟩ := gridSteps_bounds hnum hden
  rw [round_eq negative hnum] at h
  unfold gridValue magnitude
  split_ifs at h with hlt
  · obtain ⟨hm, he⟩ := ofParts?_eq_some h
    rw [hm, he]
    exact ⟨rfl, le_rfl⟩
  · obtain ⟨hm, he⟩ := ofParts?_eq_some h
    have hcarry : gridSteps num den (gridExponent num den) = Nat.pow 2 53 := by omega
    rw [hm, he, hcarry, zpow_add₀ (by norm_num)]
    refine ⟨?_, by omega⟩
    simp only [Nat.pow_eq]
    push_cast
    ring

/-- A number is rounded if its place on the grid is below the bound of the format. -/
theorem exists_round_of_gridValue_lt (negative : Bool) (hnum : num ≠ 0) (hden : den ≠ 0)
    (h : gridValue num den < 2 ^ (1024 : Int)) : ∃ x, round negative num den = some x := by
  obtain ⟨hgrid, -⟩ := onGrid_gridExponent hnum hden
  obtain ⟨hhigh, hlow⟩ := gridSteps_bounds hnum hden
  have htwo : (2 : ℚ) ≠ 0 := by norm_num
  rw [round_eq negative hnum]
  unfold gridValue at h
  generalize gridExponent num den = e at *
  -- A power of two that is not beyond the place bounds the exponent.
  have hbound : ∀ k : Nat, Nat.pow 2 k ≤ gridSteps num den e → (k : Int) + e < 1024 := by
    intro k hk
    have hcast : (2 : ℚ) ^ (k : Int) ≤ gridSteps num den e := by
      rw [zpow_natCast]
      exact_mod_cast hk
    refine le_of_two_zpow_lt (lt_of_le_of_lt ?_ h)
    rw [zpow_add₀ htwo]
    gcongr
  -- The place is a significand of the format, or it is the first one of the next grid.
  split_ifs with hlt
  · have hexp : e ≤ 971 := by
      by_cases hleast : e = -1074
      · omega
      · have hlast := hbound 52 (hlow hleast)
        omega
    have hnormal : Nat.pow 2 52 ≤ gridSteps num den e ∨ e = -1074 := by
      by_cases hleast : e = -1074
      · exact .inr hleast
      · exact .inl (hlow hleast)
    unfold ofParts?
    rw [dif_pos ⟨hlt, hgrid, hexp, hnormal⟩]
    exact ⟨_, rfl⟩
  · have hlast := hbound 53 (by omega)
    unfold ofParts?
    rw [dif_pos ⟨by decide, by omega, by omega, .inl le_rfl⟩]
    exact ⟨_, rfl⟩

/-- What is not beyond a number that can be rounded can be rounded too, to a number that is not
beyond the other. -/
theorem exists_round_of_le (negative : Bool) {negative' : Bool} {y : Binary64} (hden : den ≠ 0)
    (hden' : den' ≠ 0) (h : (num : ℚ) / den ≤ num' / den')
    (hy : round negative' num' den' = some y) :
    ∃ x, round negative num den = some x ∧ x.magnitude ≤ y.magnitude := by
  -- Zero has no grid, and is rounded to itself.
  by_cases hnum : num = 0
  · refine ⟨zero negative, by rw [hnum]; rfl, ?_⟩
    have hzero : (zero negative).magnitude = 0 := by
      unfold magnitude zero
      rw [Nat.cast_zero, zero_mul]
    rw [hzero]
    exact y.magnitude_nonneg
  · have hnum' : num' ≠ 0 := by
      rintro rfl
      rw [Nat.cast_zero, zero_div] at h
      have hpos : (0 : ℚ) < num / den := by
        have hn : (0 : ℚ) < num := by exact_mod_cast Nat.pos_of_ne_zero hnum
        have hd : (0 : ℚ) < den := by exact_mod_cast Nat.pos_of_ne_zero hden
        positivity
      exact absurd h (not_le.mpr hpos)
    have hplace := gridValue_mono hnum hden hnum' hden' h
    rw [← (magnitude_of_round hnum' hden' hy).1] at hplace
    obtain ⟨x, hx⟩ :=
      exists_round_of_gridValue_lt negative hnum hden (hplace.trans_lt y.magnitude_lt)
    exact ⟨x, hx, (magnitude_of_round hnum hden hx).1.trans_le hplace⟩

/-- A quotient is at most half a step beyond the number to which it is rounded. -/
theorem le_of_round {negative : Bool} {x : Binary64} (hden : den ≠ 0)
    (h : round negative num den = some x) :
    (num : ℚ) / den ≤ (2 * x.significand + 1) * 2 ^ (x.exponent - 1) := by
  have hhalf : (2 * (x.significand : ℚ) + 1) * 2 ^ (x.exponent - 1) =
      x.magnitude + 2 ^ (x.exponent - 1) := by
    unfold magnitude
    have hstep : (2 : ℚ) ^ x.exponent = 2 ^ (x.exponent - 1) * 2 := by
      rw [← zpow_add_one₀ (by norm_num), sub_add_cancel]
    rw [hstep]
    ring
  rw [hhalf]
  -- Zero is at the lower end of everything. Any other quotient has a place on a grid.
  by_cases hnum : num = 0
  · rw [hnum, Nat.cast_zero, zero_div]
    have hpos : (0 : ℚ) < 2 ^ (x.exponent - 1) := by positivity
    have hnonneg := x.magnitude_nonneg
    linarith
  · obtain ⟨hplace, hfiner⟩ := magnitude_of_round hnum hden h
    -- Its place is at most half a step below it, counted in steps of that grid.
    have hs := scale_snd_ne_zero two_ne_zero hden num (-gridExponent num den)
    have hle := two_mul_le_divideToEven (a := (scale 2 num den (-gridExponent num den)).1) hs
    have hspos : (0 : ℚ) < (scale 2 num den (-gridExponent num den)).2 := by
      exact_mod_cast Nat.pos_of_ne_zero hs
    have hratio : ratio (scale 2 num den (-gridExponent num den)) ≤
        gridSteps num den (gridExponent num den) + 1 / 2 := by
      unfold ratio
      rw [div_le_iff₀ hspos]
      have hcast : (2 : ℚ) * (scale 2 num den (-gridExponent num den)).1 ≤
          (2 * gridSteps num den (gridExponent num den) + 1) *
            (scale 2 num den (-gridExponent num den)).2 := by exact_mod_cast hle
      linarith
    -- The grid of the result is not finer, so half a step there is no less.
    have hstep : (2 : ℚ) ^ gridExponent num den = 2 ^ (gridExponent num den - 1) * 2 := by
      rw [← zpow_add_one₀ (by norm_num), sub_add_cancel]
    calc (num : ℚ) / den
        = ratio (scale 2 num den (-gridExponent num den)) * 2 ^ gridExponent num den :=
          (ratio_gridSteps num den _).symm
      _ ≤ (gridSteps num den (gridExponent num den) + 1 / 2) * 2 ^ gridExponent num den := by
          gcongr
      _ = gridValue num den + 2 ^ (gridExponent num den - 1) := by
          unfold gridValue
          rw [hstep]
          ring
      _ ≤ x.magnitude + 2 ^ (x.exponent - 1) := by
          rw [← hplace]
          gcongr
          · norm_num

end TextAdventure.Binary64
