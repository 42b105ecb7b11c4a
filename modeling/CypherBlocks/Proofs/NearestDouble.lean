import CypherBlocks.Proofs.Rounding

/-!
# The nearest double

Of all finite doubles none is nearer to a number than the one it is converted to, and of two that
are equally near the one with an even mantissa is taken.  This determines the double.  A number is
converted to an infinite one exactly from half a step above the greatest finite double on.
-/

namespace CypherBlocks

namespace Double

open Binary

/-- No finite double is nearer to a size, and if another one is as near, then this one is even. -/
structure IsNearest (v : ℚ) (m : Nat) (e : Int) : Prop where
  form : IsForm m e
  nearest : ∀ m' e', IsForm m' e' → |scaled m e - v| ≤ |scaled m' e' - v|
  even : ∀ m' e', IsForm m' e' → |scaled m e - v| = |scaled m' e' - v| →
    scaled m' e' ≠ scaled m e → m % 2 = 0

/-- Half a step above the greatest finite double. -/
def overflowBound : ℚ := 2 ^ 1024 - 2 ^ 970

/-! ## 1. On a grid -/

/-- The mantissa on a grid is at most half a step away, and even if it is just a half. -/
theorem gridMantissa_near (n : Nat) (f t : Int) :
    |scaled (gridMantissa (2 * n) (f - 1) t) t - scaled n f| ≤ 1 / 2 * 2 ^ t ∧
      (|scaled (gridMantissa (2 * n) (f - 1) t) t - scaled n f| = 1 / 2 * 2 ^ t →
        gridMantissa (2 * n) (f - 1) t % 2 = 0) := by
  have hstep : (0 : ℚ) < 2 ^ t := by positivity
  have htwice : scaled n f = scaled (2 * n) (f - 1) := by
    rw [Nat.mul_comm, scaled_finer (k := 1) (show f = f - 1 + (1 : Nat) by omega), Nat.pow_one]
  unfold gridMantissa
  split
  · rename_i hle
    have hsame : scaled ((2 * n) <<< (f - 1 - t).toNat) t = scaled n f := by
      rw [htwice, Nat.shiftLeft_eq, scaled_mul_pow]
      congr 1
      omega
    rw [hsame, sub_self, abs_zero]
    exact ⟨by positivity, fun h => absurd h.symm (by positivity)⟩
  · rename_i hlt
    obtain ⟨k, hk⟩ : ∃ k : Nat, t - (f - 1) = (k + 1 : Nat) := ⟨(t - (f - 1) - 1).toNat, by omega⟩
    have hsize : (2 : ℚ) ^ t = 2 ^ (k + 1) * 2 ^ (f - 1) := by
      rw [← zpow_natCast, ← two_zpow_add]
      congr 1
      omega
    have hunit : (0 : ℚ) < 2 ^ (f - 1) := by positivity
    have hdiff : ∀ c : Nat, scaled c t - scaled n f = ((c * 2 ^ (k + 1) : Nat) - (2 * n : Nat)) *
        2 ^ (f - 1) := by
      intro c
      rw [htwice, scaled, scaled, hsize]
      push_cast
      ring
    rw [hk, Int.toNat_natCast, hdiff, abs_mul, abs_of_pos hunit, hsize, ← mul_assoc,
      mul_le_mul_iff_left₀ hunit, mul_left_inj' hunit.ne']
    obtain ⟨hlow, hhigh⟩ := shiftRound_near (2 * n) (k + 1)
    have hlow : 2 * ((shiftRound (2 * n) (k + 1) * 2 ^ (k + 1) : Nat) : ℚ) ≤
        2 * (2 * n : Nat) + 2 ^ (k + 1) := by exact_mod_cast hlow
    have hhigh : 2 * ((2 * n : Nat) : ℚ) ≤
        2 * (shiftRound (2 * n) (k + 1) * 2 ^ (k + 1) : Nat) + 2 ^ (k + 1) := by
      exact_mod_cast hhigh
    refine ⟨abs_le.mpr ⟨by linarith, by linarith⟩, fun htie => ?_⟩
    have hhalf : (1 : ℚ) / 2 * 2 ^ (k + 1) = (2 ^ k : Nat) := by
      rw [pow_succ]
      push_cast
      ring
    rw [hhalf] at htie
    have htie : |((shiftRound (2 * n) (k + 1) * 2 ^ (k + 1) : Nat) : ℤ) - (2 * n : Nat)| =
        (2 ^ k : Nat) := by exact_mod_cast htie
    -- the remainder is just a half, and then the even one of the two integers was taken
    have hdiv := Nat.div_add_mod' (2 * n) (2 ^ (k + 1))
    have hmod : 2 * n % 2 ^ (k + 1) < 2 ^ (k + 1) := Nat.mod_lt _ (Nat.two_pow_pos _)
    have hpow : 2 ^ (k + 1) = 2 * 2 ^ k := by rw [Nat.pow_succ, Nat.mul_comm]
    rcases shiftRound_succ (2 * n) k with ⟨heq, hr⟩ | ⟨heq, hr⟩
    · rw [heq] at htie ⊢
      rcases abs_eq (Int.natCast_nonneg _) |>.mp htie with htie | htie <;> omega
    · rw [heq, Nat.add_mul, Nat.one_mul] at htie
      rw [heq]
      rcases abs_eq (Int.natCast_nonneg _) |>.mp htie with htie | htie <;> omega

/-- On its grid a size has the bits of a double, unless the grid is the finest one. -/
theorem gridOf_bounds {n : Nat} (hn : n ≠ 0) (f : Int) :
    scaled n f < 2 ^ (gridOf n f + 53) ∧
      (gridOf n f = minExponent ∨ (2 : ℚ) ^ (gridOf n f + 52) ≤ scaled n f) := by
  obtain ⟨hlow, hhigh⟩ := scaled_bounds hn f
  unfold gridOf
  rw [minExponent_eq, mantissaBits_eq]
  refine ⟨hhigh.trans_le (zpow_le_zpow_right₀ (by norm_num) (by omega)), ?_⟩
  rcases le_total (f + bitLength n - (53 : Nat)) (-1074) with hle | hle
  · exact .inl (max_eq_left hle)
  · rw [max_eq_right hle]
    exact .inr ((zpow_le_zpow_right₀ (by norm_num) (by omega)).trans hlow)

section Grid

variable {v : ℚ} {g : Nat} {t : Int}

/-- A mantissa that is at most half a step away is as near as any on its grid, and any other one
that is as near is just half a step away. -/
theorem grid_nearest (hnear : |scaled g t - v| ≤ 1 / 2 * 2 ^ t) (c : Nat) :
    |scaled g t - v| ≤ |scaled c t - v| ∧
      (|scaled g t - v| = |scaled c t - v| → c ≠ g → |scaled g t - v| = 1 / 2 * 2 ^ t) := by
  by_cases hc : c = g
  · rw [hc]
    exact ⟨le_rfl, fun _ hne => absurd rfl hne⟩
  · have hfar : (2 : ℚ) ^ t ≤ |scaled c t - scaled g t| := by
      by_contra hlt
      exact hc (eq_of_scaled_near (not_le.mp hlt))
    have htriangle : |scaled c t - scaled g t| ≤ |scaled c t - v| + |scaled g t - v| := by
      rw [abs_sub_comm (scaled g t) v]
      exact abs_sub_le _ _ _
    exact ⟨by linarith, fun heq _ => by linarith⟩

/-- A double on a finer grid lies below every size of this grid that is no subnormal. -/
theorem form_lt {m : Nat} {e : Int} (hform : IsForm m e) (hlt : e < t) :
    scaled m e < 2 ^ (t + 52) := by
  have hbits : m < 2 ^ 53 := hform.1
  rw [scaled_lt_two_zpow (k := (t + 52 - e).toNat) (by omega)]
  exact hbits.trans_le (Nat.pow_le_pow_right (by omega) (by omega))

/-- What is nearest on the grid of a size is nearest of all doubles. -/
theorem grid_nearest_form (hnear : |scaled g t - v| ≤ 1 / 2 * 2 ^ t)
    (hfull : t = minExponent ∨ 2 ^ (t + 52) ≤ v) {m : Nat} {e : Int} (hform : IsForm m e) :
    |scaled g t - v| ≤ |scaled m e - v| ∧
      (|scaled g t - v| = |scaled m e - v| → scaled m e ≠ scaled g t →
        |scaled g t - v| = 1 / 2 * 2 ^ t) := by
  by_cases hle : t ≤ e
  · have hgrid : scaled m e = scaled (m * 2 ^ (e - t).toNat) t := scaled_finer (by omega) m
    obtain ⟨hless, htie⟩ := grid_nearest hnear (m * 2 ^ (e - t).toNat)
    rw [← hgrid] at hless htie
    refine ⟨hless, fun heq hne => htie heq fun hc => hne ?_⟩
    rw [hgrid, hc]
  · -- the power of two between the double and the size lies on the grid and is nearer than the
    -- double
    have hmin := hform.2.1
    have hv : 2 ^ (t + 52) ≤ v := hfull.resolve_left (by omega)
    have hbelow := form_lt hform (not_le.mp hle)
    have hpower : scaled (2 ^ 52) t = 2 ^ (t + 52) := by
      rw [← scaled_one, scaled_finer (k := 52) (show t + 52 = t + (52 : Nat) by omega), Nat.one_mul]
    obtain ⟨hless, -⟩ := grid_nearest hnear (2 ^ 52)
    rw [hpower, abs_of_nonpos (show (2 : ℚ) ^ (t + 52) - v ≤ 0 by linarith)] at hless
    rw [abs_of_neg (show scaled m e - v < 0 by linarith)]
    exact ⟨by linarith, fun heq _ => by linarith⟩

end Grid

/-! ## 2. The double that a number is converted to -/

theorem scaled_succ (c : Nat) (t : Int) : scaled (c + 1) t = scaled c t + 2 ^ t := by
  unfold scaled
  push_cast
  ring

theorem scaled_two_pow (c : Nat) (t : Int) : scaled (2 ^ c) t = 2 ^ (t + c) := by
  rw [← scaled_one, scaled_finer (k := c) rfl, Nat.one_mul]

section Conversion

variable {v : ℚ} {g : Nat} {t : Int}

theorem grid_le (hnear : |scaled g t - v| ≤ 1 / 2 * 2 ^ t) (hupper : v < 2 ^ (t + 53)) :
    g ≤ 2 ^ 53 := by
  by_contra hgt
  have hstep : (0 : ℚ) < 2 ^ t := by positivity
  have hmore : scaled (2 ^ 53 + 1) t ≤ scaled g t := scaled_le_scaled.mpr (by omega)
  rw [scaled_succ, scaled_two_pow 53 t, Nat.cast_ofNat] at hmore
  rw [abs_le] at hnear
  linarith

/-- The double of a grid and a mantissa is the nearest one. -/
theorem isNearest_of_grid (hnear : |scaled g t - v| ≤ 1 / 2 * 2 ^ t)
    (htie : |scaled g t - v| = 1 / 2 * 2 ^ t → g % 2 = 0)
    (hfull : t = minExponent ∨ 2 ^ (t + 52) ≤ v) (hmin : minExponent ≤ t) (hmax : t ≤ maxExponent)
    (hg : g < 2 ^ 53) : IsNearest v g t := by
  have hform : IsForm g t := by
    refine ⟨hg, hmin, hmax, hfull.symm.imp_left fun hfull => ?_⟩
    by_contra hlt
    have hstep : (0 : ℚ) < 2 ^ t := by positivity
    have hless : scaled (g + 1) t ≤ scaled (2 ^ 52) t := by
      refine scaled_le_scaled.mpr ?_
      rw [mantissaBits_eq] at hlt
      omega
    rw [scaled_succ, scaled_two_pow 52 t, Nat.cast_ofNat] at hless
    rw [abs_le] at hnear
    linarith
  exact ⟨hform, fun m' e' h => (grid_nearest_form hnear hfull h).1,
    fun m' e' h heq hne => htie ((grid_nearest_form hnear hfull h).2 heq hne)⟩

/-- A carry moves to the next grid. -/
theorem isNearest_of_carry (hnear : |scaled (2 ^ 53) t - v| ≤ 1 / 2 * 2 ^ t)
    (hfull : t = minExponent ∨ 2 ^ (t + 52) ≤ v) (hmin : minExponent ≤ t) (hmax : t < maxExponent) :
    IsNearest v (2 ^ 52) (t + 1) := by
  have hsame : scaled (2 ^ 52) (t + 1) = scaled (2 ^ 53) t := by
    rw [scaled_two_pow, scaled_two_pow]
    congr 1
    omega
  have hform : IsForm (2 ^ 52) (t + 1) := ⟨by decide, by omega, by omega, .inl (by decide)⟩
  refine ⟨hform, fun m' e' h => ?_, fun _ _ _ _ _ => by decide⟩
  rw [hsame]
  exact (grid_nearest_form hnear hfull h).1

/-- A size below the bound is rounded to a mantissa within the range of doubles, and any other is
not. -/
theorem lt_overflowBound_iff (hnear : |scaled g t - v| ≤ 1 / 2 * 2 ^ t)
    (htie : |scaled g t - v| = 1 / 2 * 2 ^ t → g % 2 = 0) (hupper : v < 2 ^ (t + 53))
    (hfull : t = minExponent ∨ 2 ^ (t + 52) ≤ v) :
    v < overflowBound ↔ t < maxExponent ∨ t = maxExponent ∧ g < 2 ^ 53 := by
  have hgreatest := grid_le hnear hupper
  -- the powers of two that matter, as mere numbers
  obtain ⟨a, b, c, hbound, hpos, hgap, hdouble, hlast, hless, hmore⟩ :
      ∃ a b c : ℚ, overflowBound = a - c ∧ 0 < c ∧ 2 * c ≤ b ∧ a = 2 * b ∧
        (t = 971 → 2 ^ t = 2 * c ∧ scaled (2 ^ 53) t = a) ∧ (t < 971 → 2 ^ (t + 53) ≤ b) ∧
        (971 < t → a ≤ 2 ^ (t + 52)) := by
    refine ⟨2 ^ (1024 : ℤ), 2 ^ (1023 : ℤ), 2 ^ (970 : ℤ), rfl, by positivity, ?_, ?_, ?_, ?_, ?_⟩
    · rw [← zpow_one_add₀ two_ne_zero]
      exact zpow_le_zpow_right₀ (by norm_num) (by norm_num)
    · rw [← zpow_one_add₀ two_ne_zero]
      rfl
    · rintro rfl
      rw [← zpow_one_add₀ two_ne_zero, scaled_two_pow]
      exact ⟨rfl, rfl⟩
    · exact fun h => zpow_le_zpow_right₀ (by norm_num) (by omega)
    · exact fun h => zpow_le_zpow_right₀ (by norm_num) (by omega)
  rw [minExponent_eq] at hfull
  rw [maxExponent_eq, hbound]
  rcases lt_trichotomy t 971 with hlt | heq | hgt
  · have := hless hlt
    exact iff_of_true (by linarith) (.inl hlt)
  · -- on the last grid the bound lies half a step above the greatest mantissa, which is odd
    obtain ⟨hstep, hlast⟩ := hlast heq
    rw [hstep] at hnear htie
    have hdistance := abs_le.mp hnear
    constructor
    · intro hv
      refine .inr ⟨heq, Nat.lt_of_le_of_ne hgreatest ?_⟩
      rintro rfl
      rw [hlast] at hdistance
      linarith
    · rintro (hlt | ⟨-, hg⟩)
      · omega
      · by_contra hge
        have hnext : scaled (g + 1) t ≤ scaled (2 ^ 53) t := scaled_le_scaled.mpr (by omega)
        rw [scaled_succ, hlast, hstep] at hnext
        have hsame : scaled g t = a - 2 * c := by linarith
        have heven := htie (by rw [abs_of_neg (by linarith)]; linarith)
        have hodd : scaled (g + 1) t = scaled (2 ^ 53) t := by
          rw [scaled_succ, hlast, hsame, hstep]
          ring
        have := scaled_inj.mp hodd
        omega
  · have := hmore hgt
    have hv := hfull.resolve_left (by omega)
    exact iff_of_false (by linarith) (by omega)

theorem overflowBound_lt : overflowBound < 2 ^ (1024 : ℤ) := by
  have hpos : (0 : ℚ) < 2 ^ 970 := by positivity
  exact sub_lt_self _ hpos

end Conversion

section Converted

variable (prec : Nat) (neg : Bool) {n : Nat} (hn : n ≠ 0) {f : Int}
include hn

/-- Of a number that is too small nothing is left. -/
theorem ofBinary_of_small (hsmall : f + bitLength n < minExponent - 2) :
    scaled n f < overflowBound ∧ ofBinary ⟨prec, neg, .finite n f⟩ = .finite neg 0 minExponent ∧
      IsNearest (scaled n f) 0 minExponent := by
  obtain ⟨-, hhigh⟩ := scaled_bounds hn f
  have hsize : scaled n f < 1 / 2 * 2 ^ (-1074 : ℤ) := by
    have hle : (2 : ℚ) ^ (f + bitLength n) ≤ 2 ^ (-1075 : ℤ) := by
      rw [minExponent_eq] at hsmall
      exact zpow_le_zpow_right₀ (by norm_num) (by omega)
    have hhalf : (1 : ℚ) / 2 * 2 ^ (-1074 : ℤ) = 2 ^ (-1075 : ℤ) := by
      rw [show (-1074 : ℤ) = 1 + -1075 by norm_num, zpow_one_add₀ two_ne_zero]
      ring
    linarith
  -- zero is on the finest grid, and less than half a step away
  have hnear : |scaled 0 minExponent - scaled n f| < 1 / 2 * 2 ^ minExponent := by
    have hpos := scaled_pos hn f
    have hzero : scaled 0 minExponent = 0 := by simp [scaled]
    rw [hzero, zero_sub, abs_neg, abs_of_pos hpos]
    exact hsize
  have hupper : scaled n f < 2 ^ (minExponent + 53) :=
    hhigh.trans_le (zpow_le_zpow_right₀ (by norm_num) (by omega))
  refine ⟨?_, ?_, ?_⟩
  · exact (lt_overflowBound_iff hnear.le (fun h => absurd h hnear.ne) hupper (.inl rfl)).mpr
      (.inl (by decide))
  · unfold ofBinary
    simp [hsmall]
  · exact isNearest_of_grid hnear.le (fun h => absurd h hnear.ne) (.inl rfl) le_rfl (by decide)
      (by decide)

theorem ofBinary_of_large (hsmall : ¬ f + bitLength n < minExponent - 2)
    (hlarge : maxExponent + 2000 < f) :
    overflowBound ≤ scaled n f ∧ ofBinary ⟨prec, neg, .finite n f⟩ = .infinite neg := by
  obtain ⟨hlow, -⟩ := scaled_bounds hn f
  constructor
  · have hle : (2 : ℚ) ^ (1024 : ℤ) ≤ 2 ^ (f + bitLength n - 1) := by
      have := bitLength_pos hn
      rw [maxExponent_eq] at hlarge
      exact zpow_le_zpow_right₀ (by norm_num) (by omega)
    exact overflowBound_lt.le.trans (hle.trans hlow)
  · unfold ofBinary
    simp [hn, hsmall, hlarge]

/-- Any other number is rounded on its grid, where the mantissa may be carried over to the next
power of two. -/
theorem ofBinary_of_grid (hsmall : ¬ f + bitLength n < minExponent - 2)
    (hlarge : ¬ maxExponent + 2000 < f) :
    (scaled n f < overflowBound →
      ∃ m e, ofBinary ⟨prec, neg, .finite n f⟩ = .finite neg m e ∧ IsNearest (scaled n f) m e) ∧
    (overflowBound ≤ scaled n f → ofBinary ⟨prec, neg, .finite n f⟩ = .infinite neg) := by
  obtain ⟨hupper, hfull⟩ := gridOf_bounds hn f
  rw [ofBinary_finite prec neg hn (not_lt.mp hsmall) (not_lt.mp hlarge)]
  obtain ⟨hnear, htie⟩ := gridMantissa_near n f (gridOf n f)
  have hmin : minExponent ≤ gridOf n f := le_max_left _ _
  have hrange := lt_overflowBound_iff hnear htie hupper hfull
  have hgreatest := grid_le hnear hupper
  rw [mantissaBits_eq]
  generalize gridMantissa (2 * n) (f - 1) (gridOf n f) = g at *
  generalize gridOf n f = t at *
  -- a mantissa of 54 bits is halved, and then the exponent is the next one
  by_cases hcarry : g = 2 ^ 53
  · subst hcarry
    rw [if_pos rfl]
    constructor
    · intro hv
      have hmax : t < maxExponent := (hrange.mp hv).resolve_right (by simp)
      rw [if_neg (by omega)]
      exact ⟨_, _, rfl, isNearest_of_carry hnear hfull hmin hmax⟩
    · intro hv
      have hmax := mt hrange.mpr (not_lt.mpr hv)
      rw [if_pos (by omega)]
  · rw [if_neg hcarry]
    constructor
    · intro hv
      have hmax := hrange.mp hv
      rw [if_neg (by omega)]
      exact ⟨_, _, rfl, isNearest_of_grid hnear htie hfull hmin (by omega) (by omega)⟩
    · intro hv
      have hmax := mt hrange.mpr (not_lt.mpr hv)
      rw [if_pos (by omega)]

/-- A number below the bound is converted to the nearest double, and any other to infinity. -/
theorem ofBinary_spec (f : Int) :
    (scaled n f < overflowBound →
      ∃ m e, ofBinary ⟨prec, neg, .finite n f⟩ = .finite neg m e ∧ IsNearest (scaled n f) m e) ∧
    (overflowBound ≤ scaled n f → ofBinary ⟨prec, neg, .finite n f⟩ = .infinite neg) := by
  by_cases hsmall : f + bitLength n < minExponent - 2
  · obtain ⟨hbelow, hzero, hnearest⟩ := ofBinary_of_small prec neg hn hsmall
    exact ⟨fun _ => ⟨0, minExponent, hzero, hnearest⟩, fun h => absurd hbelow (not_lt.mpr h)⟩
  · by_cases hlarge : maxExponent + 2000 < f
    · obtain ⟨hover, hinfinite⟩ := ofBinary_of_large prec neg hn hsmall hlarge
      exact ⟨fun h => absurd hover (not_le.mpr h), fun _ => hinfinite⟩
    · exact ofBinary_of_grid prec neg hn hsmall hlarge

end Converted

/-! ## 3. There is only one -/

/-- Each size has one form. -/
theorem IsForm.unique {m m' : Nat} {e e' : Int} (h : IsForm m e) (h' : IsForm m' e')
    (hsame : scaled m e = scaled m' e') : m = m' ∧ e = e' := by
  -- the one with the lower exponent would have more bits than a double
  have hnotLess : ∀ {m m' : Nat} {e e' : Int}, IsForm m e → IsForm m' e' →
      scaled m e = scaled m' e' → ¬ e < e' := by
    intro m m' e e' h h' hsame hlt
    have hbits : m < 2 ^ 53 := h.1
    have hmin := h.2.1
    have hfull : 2 ^ 52 ≤ m' := h'.2.2.2.resolve_right (ne_of_gt (hmin.trans_lt hlt))
    rw [scaled_finer (show e' = e + (e' - e).toNat by omega) m', scaled_inj] at hsame
    have hpow : 2 ≤ 2 ^ (e' - e).toNat := Nat.le_self_pow (by omega) 2
    have hmore : 2 ^ 52 * 2 ≤ m' * 2 ^ (e' - e).toNat := Nat.mul_le_mul hfull hpow
    omega
  have he : e = e' :=
    le_antisymm (not_lt.mp (hnotLess h' h hsame.symm)) (not_lt.mp (hnotLess h h' hsame))
  subst he
  exact ⟨scaled_inj.mp hsame, rfl⟩

/-- Between two different doubles with even mantissas there is another one. -/
theorem exists_between {m m' : Nat} {e e' : Int} (h : IsForm m e) (h' : IsForm m' e')
    (heven : m % 2 = 0) (heven' : m' % 2 = 0) (hlt : scaled m e < scaled m' e') :
    IsForm (m + 1) e ∧ scaled m e < scaled (m + 1) e ∧ scaled (m + 1) e < scaled m' e' := by
  have hbits : m < 2 ^ 53 := h.1
  have hform : IsForm (m + 1) e := by
    obtain ⟨-, hmin, hmax, hfull⟩ := h
    refine ⟨?_, hmin, hmax, hfull.imp_left Nat.le_succ_of_le⟩
    change m + 1 < 2 ^ 53
    omega
  have hle : e ≤ e' := by
    by_contra hless
    have hmin := h'.2.1
    have hfull : 2 ^ 52 ≤ m := h.2.2.2.resolve_right (by omega)
    have hbelow := form_lt h' (not_le.mp hless)
    have habove : (2 : ℚ) ^ (e + 52) ≤ scaled m e := (two_zpow_le_scaled (k := 52) rfl).mpr hfull
    linarith
  have hgrid : scaled m' e' = scaled (m' * 2 ^ (e' - e).toNat) e := scaled_finer (by omega) m'
  refine ⟨hform, scaled_lt_scaled.mpr (Nat.lt_succ_self m), lt_of_le_of_ne ?_ fun hsame => ?_⟩
  · rw [hgrid, scaled_lt_scaled] at hlt
    rw [hgrid, scaled_le_scaled]
    exact hlt
  · obtain ⟨rfl, -⟩ := hform.unique h' hsame
    omega

theorem IsNearest.unique {v : ℚ} {m m' : Nat} {e e' : Int} (h : IsNearest v m e)
    (h' : IsNearest v m' e') : m = m' ∧ e = e' := by
  -- two that are equally near would both be even, and the double between them would be nearer
  have hnotLess : ∀ {m m' : Nat} {e e' : Int}, IsNearest v m e → IsNearest v m' e' →
      ¬ scaled m e < scaled m' e' := by
    intro m m' e e' h h' hlt
    have hsame : |scaled m e - v| = |scaled m' e' - v| :=
      le_antisymm (h.nearest m' e' h'.form) (h'.nearest m e h.form)
    have heven := h.even m' e' h'.form hsame hlt.ne'
    have heven' := h'.even m e h.form hsame.symm hlt.ne
    obtain ⟨hform, hlow, hhigh⟩ := exists_between h.form h'.form heven heven' hlt
    have hnearest := h.nearest _ _ hform
    rcases abs_eq_abs.mp hsame with hequal | hopposite
    · linarith
    · rw [abs_of_neg (show scaled m e - v < 0 by linarith)] at hnearest
      rcases abs_cases (scaled (m + 1) e - v) with ⟨habs, -⟩ | ⟨habs, -⟩ <;> linarith
  have hsame : scaled m e = scaled m' e' :=
    le_antisymm (not_lt.mp (hnotLess h' h)) (not_lt.mp (hnotLess h h'))
  exact h.form.unique h'.form hsame

end Double

end CypherBlocks
