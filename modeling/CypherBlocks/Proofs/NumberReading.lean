import CypherBlocks.Proofs.Rounding

/-!
# Numbers read from text

A number that is spelled is read as one of 512 bits next to it.  The power of five that the point or
the exponent asks for is a product of few rounded factors, with 64 bits to spare, so that what is
read is off by less than one part in `2^509`, and exact if the number has few bits.  A number that
is too small or too large for its exponent becomes zero or infinite, and so does one whose power of
five is.
-/

namespace CypherBlocks

namespace Binary

/-! ## 1. Errors that multiply -/

/-- Equal up to so many factors of `1 + u`. -/
def Close (u : ℚ) (j : Nat) (v r : ℚ) : Prop := v ≤ r * (1 + u) ^ j ∧ r ≤ v * (1 + u) ^ j

theorem Close.mul {u v r w s : ℚ} {i j : Nat} (h : Close u i v r) (h' : Close u j w s)
    (hu : 0 ≤ u) (hv : 0 ≤ v) (hr : 0 ≤ r) (hw : 0 ≤ w) (hs : 0 ≤ s) :
    Close u (i + j) (v * w) (r * s) := by
  constructor
  · calc v * w ≤ r * (1 + u) ^ i * (s * (1 + u) ^ j) := mul_le_mul h.1 h'.1 hw (by positivity)
      _ = r * s * (1 + u) ^ (i + j) := by ring
  · calc r * s ≤ v * (1 + u) ^ i * (w * (1 + u) ^ j) := mul_le_mul h.2 h'.2 hs (by positivity)
      _ = v * w * (1 + u) ^ (i + j) := by ring

theorem Close.trans {u v w r : ℚ} {i j : Nat} (h : Close u i v w) (h' : Close u j w r)
    (hu : 0 ≤ u) : Close u (i + j) v r := by
  constructor
  · calc v ≤ w * (1 + u) ^ i := h.1
      _ ≤ r * (1 + u) ^ j * (1 + u) ^ i := mul_le_mul_of_nonneg_right h'.1 (by positivity)
      _ = r * (1 + u) ^ (i + j) := by ring
  · calc r ≤ w * (1 + u) ^ j := h'.2
      _ ≤ v * (1 + u) ^ i * (1 + u) ^ j := mul_le_mul_of_nonneg_right h.2 (by positivity)
      _ = v * (1 + u) ^ (i + j) := by ring

/-- A few small factors make a small error. -/
theorem one_add_pow_le {u : ℚ} (hu : 0 ≤ u) {j : Nat} (hj : 2 * j * u ≤ 1) :
    (1 + u) ^ j ≤ 1 + 2 * j * u := by
  induction j with
  | zero => simp
  | succ j ih =>
    push_cast at hj ⊢
    have hstep : (1 + u) ^ j ≤ 1 + 2 * j * u := ih (by nlinarith)
    have hsmall : 2 * (j : ℚ) * u * u ≤ 1 * u := mul_le_mul_of_nonneg_right (by linarith) hu
    calc (1 + u) ^ (j + 1) = (1 + u) ^ j * (1 + u) := pow_succ _ _
      _ ≤ (1 + 2 * j * u) * (1 + u) := mul_le_mul_of_nonneg_right hstep (by linarith)
      _ ≤ 1 + 2 * (j + 1) * u := by linarith

theorem Close.mono {u w v r : ℚ} {i j : Nat} (h : Close u i v r) (hu : 0 ≤ u) (hw : u ≤ w)
    (hle : i ≤ j) (hv : 0 ≤ v) (hr : 0 ≤ r) : Close w j v r := by
  have hpow : (1 + u) ^ i ≤ (1 + w) ^ j :=
    (pow_le_pow_left₀ (by linarith) (by linarith) i).trans (pow_le_pow_right₀ (by linarith) hle)
  exact ⟨h.1.trans (mul_le_mul_of_nonneg_left hpow hr),
    h.2.trans (mul_le_mul_of_nonneg_left hpow hv)⟩

/-- Rounding is one factor. -/
theorem close_roundedSize {prec : Nat} (hprec : 0 < prec) {n : Nat} (hn : n ≠ 0) (e : Int) :
    Close (2 ^ (1 - (prec : ℤ))) 1 (scaled n e) (roundedSize prec n e) := by
  obtain ⟨-, hdiff⟩ := roundedSize_grid prec n e
  have hv := scaled_pos hn e
  have hdelta : (2 : ℚ) ^ (1 - (prec : ℤ)) = 2 * 2 ^ (-(prec : ℤ)) := zpow_one_add₀ two_ne_zero _
  have hrelative : |roundedSize prec n e - scaled n e| ≤ scaled n e * 2 ^ (-(prec : ℤ)) := by
    refine hdiff.trans ?_
    have hhalf : (1 : ℚ) / 2 * 2 ^ (e + bitLength n - prec) =
        2 ^ (e + bitLength n - 1) * 2 ^ (-(prec : ℤ)) := by
      rw [← two_zpow_add, show e + bitLength n - (prec : ℤ) =
        1 + (e + bitLength n - 1 + -(prec : ℤ)) by omega, zpow_one_add₀ two_ne_zero]
      ring
    rw [hhalf]
    exact mul_le_mul_of_nonneg_right (scaled_bounds hn e).1 (by positivity)
  have hsmall : (2 : ℚ) ^ (-(prec : ℤ)) ≤ 1 / 2 := by
    have hle : (2 : ℚ) ^ (-(prec : ℤ)) ≤ 2 ^ (-1 : ℤ) :=
      zpow_le_zpow_right₀ (by norm_num) (by omega)
    norm_num at hle ⊢
    exact hle
  have hpos : (0 : ℚ) < 2 ^ (-(prec : ℤ)) := by positivity
  rw [hdelta]
  generalize (2 : ℚ) ^ (-(prec : ℤ)) = δ at *
  generalize roundedSize prec n e = r at *
  rw [abs_le] at hrelative
  rw [Close, pow_one]
  constructor
  · -- `(1 - δ) (1 + 2 δ)` is at least one
    have hlow : scaled n e * (1 - δ) ≤ r := by linarith
    calc scaled n e ≤ scaled n e * ((1 - δ) * (1 + 2 * δ)) :=
          le_mul_of_one_le_right hv.le (by nlinarith)
      _ = scaled n e * (1 - δ) * (1 + 2 * δ) := by ring
      _ ≤ r * (1 + 2 * δ) := mul_le_mul_of_nonneg_right hlow (by linarith)
  · nlinarith

/-! ## 2. Powers of five -/

/-- A number that is equal to `v` up to so many factors, or infinite if those may reach the
bound. -/
inductive Stands (u : ℚ) (j : Nat) (v : ℚ) : Binary → Prop where
  | finite {prec m : Nat} {e : Int} (one : 1 ≤ scaled m e)
      (bounded : scaled m e < 2 ^ (exponentBound - 1)) (close : Close u j v (scaled m e)) :
      Stands u j v ⟨prec, false, .finite m e⟩
  | infinite {prec : Nat} (tooLarge : 2 ^ (exponentBound - 1) ≤ v * (1 + u) ^ j) :
      Stands u j v (infinity prec false)

theorem Stands.mono {u v : ℚ} {i j : Nat} {b : Binary} (h : Stands u i v b) (hu : 0 ≤ u)
    (hv : 0 ≤ v) (hle : i ≤ j) : Stands u j v b := by
  cases h with
  | finite one bounded close =>
    exact .finite one bounded (close.mono hu le_rfl hle hv (zero_le_one.trans one))
  | infinite tooLarge =>
    refine .infinite (tooLarge.trans (mul_le_mul_of_nonneg_left ?_ hv))
    exact pow_le_pow_right₀ (by linarith) hle

section Stands

variable {prec : Nat} {u : ℚ}

theorem stands_round (hprec : 0 < prec) (hu : 2 ^ (1 - (prec : ℤ)) ≤ u) {n : Nat} {e : Int}
    (hone : 1 ≤ scaled n e) : Stands u 1 (scaled n e) (round prec false n e) := by
  have hn : n ≠ 0 := by
    rintro rfl
    norm_num [scaled] at hone
  have hclose := (close_roundedSize hprec hn e).mono (by positivity) hu le_rfl (by linarith)
    (le_trans (by positivity) (two_zpow_le_roundedSize hprec hn e))
  have hrounded := rounded_round hprec false hn e (v := scaled n e) fun hlow =>
    (scaled_bounds hn e).2.trans_le (zpow_le_zpow_right₀ (by norm_num) (by omega))
  generalize hr : roundedSize prec n e = r at *
  generalize round prec false n e = b at *
  cases hrounded with
  | zero tooSmall =>
    have hsmall : (2 : ℚ) ^ (-exponentBound) ≤ 1 := zpow_le_one_of_nonpos₀ (by norm_num) (by decide)
    linarith
  | @finite m f size bounded =>
    -- the power of two below the size is at least one, and rounding does not go below it
    have htop : (1 : Int) ≤ e + bitLength n := by
      have hlt : (2 : ℚ) ^ (0 : ℤ) < 2 ^ (e + bitLength n) := by
        rw [zpow_zero]
        exact hone.trans_lt (scaled_bounds hn e).2
      have := (zpow_lt_zpow_iff_right₀ (by norm_num : (1 : ℚ) < 2)).mp hlt
      omega
    have hleast : 1 ≤ r := by
      rw [← hr]
      refine le_trans ?_ (two_zpow_le_roundedSize hprec hn e)
      exact one_le_zpow₀ (by norm_num) (by omega)
    subst size
    exact .finite hleast bounded hclose
  | infinite tooLarge => exact .infinite (tooLarge.trans hclose.2)

theorem scaled_mul (m n : Nat) (e f : Int) : scaled (m * n) (e + f) = scaled m e * scaled n f := by
  unfold scaled
  rw [two_zpow_add]
  push_cast
  ring

theorem stands_mulAt (hprec : 0 < prec) (hu : 2 ^ (1 - (prec : ℤ)) ≤ u) {v w : ℚ} (hv : 1 ≤ v)
    (hw : 1 ≤ w) {i j : Nat} {z f : Binary} (hz : Stands u i v z) (hf : Stands u j w f) :
    Stands u (i + j + 1) (v * w) ((mulAt? prec z f).getD z) := by
  have hu0 : 0 ≤ u := le_trans (by positivity) hu
  have hpow : ∀ k : Nat, 1 ≤ (1 + u) ^ k := fun k => one_le_pow₀ (by linarith)
  -- no factor is below one, and so the product is too large if one of them is
  have hmore : v * (1 + u) ^ i ≤ v * w * (1 + u) ^ (i + j + 1) ∧
      w * (1 + u) ^ j ≤ v * w * (1 + u) ^ (i + j + 1) := by
    constructor
    · refine mul_le_mul (le_mul_of_one_le_right (by linarith) hw)
        (pow_le_pow_right₀ (by linarith) (by omega)) (by positivity) (by positivity)
    · refine mul_le_mul (le_mul_of_one_le_left (by linarith) hv)
        (pow_le_pow_right₀ (by linarith) (by omega)) (by positivity) (by positivity)
  cases hz with
  | infinite tooLarge =>
    have hinfinite : 2 ^ (exponentBound - 1) ≤ v * w * (1 + u) ^ (i + j + 1) :=
      tooLarge.trans hmore.1
    cases hf <;> exact .infinite hinfinite
  | @finite _ m e one bounded close =>
    cases hf with
    | infinite tooLarge => exact .infinite (tooLarge.trans hmore.2)
    | @finite _ n g one' bounded' close' =>
      have hproduct : 1 ≤ scaled (m * n) (e + g) := by
        rw [scaled_mul]
        exact one_le_mul_of_one_le_of_one_le one one'
      -- the product of the two approximations is exact before it is rounded once more
      have hround := stands_round hprec hu hproduct
      have hclose := close.mul close' hu0 (by linarith) (by linarith) (by linarith) (by linarith)
      rw [← scaled_mul] at hclose
      change Stands u _ _ (round prec false (m * n) (e + g))
      generalize round prec false (m * n) (e + g) = b at *
      cases hround with
      | finite one bounded close => exact .finite one bounded (hclose.trans close hu0)
      | infinite tooLarge =>
        refine .infinite (tooLarge.trans ?_)
        rw [pow_one, pow_succ, ← mul_assoc]
        exact mul_le_mul_of_nonneg_right hclose.2 (by linarith)

/-- Repeated squaring: the errors of the factors add up as the exponents do. -/
theorem stands_go (hprec : 0 < prec) (hu : 2 ^ (1 - (prec : ℤ)) ≤ u) (fuel n : Nat)
    (hn : n < 2 ^ fuel) {v w : ℚ} (hv : 1 ≤ v) (hw : 1 ≤ w) {i j : Nat} {z f : Binary}
    (hz : Stands u i v z) (hf : Stands u j w f) :
    Stands u (i + n * (j + 1)) (v * w ^ n) (powFive.go prec fuel n z f) := by
  -- by induction on the bits of the exponent: each squaring doubles the error of the factor and
  -- adds its own
  induction fuel generalizing n v w i j z f with
  | zero =>
    obtain rfl : n = 0 := by simpa using hn
    rw [powFive.go]
    simpa using hz
  | succ fuel ih =>
    have hhalf : n / 2 < 2 ^ fuel := by
      rw [Nat.pow_succ] at hn
      omega
    have hsquare : Stands u (j + j + 1) (w * w) ((mulAt? (prec + 64) f f).getD f) := by
      refine stands_mulAt (by omega) (le_trans ?_ hu) hw hw hf hf
      exact zpow_le_zpow_right₀ (by norm_num) (by push_cast; omega)
    have hvw := one_le_mul_of_one_le_of_one_le hv hw
    have hww := one_le_mul_of_one_le_of_one_le hw hw
    rw [powFive.go]
    by_cases hodd : n % 2 = 1
    · have hmore := ih (n / 2) hhalf hvw hww (stands_mulAt hprec hu hv hw hz hf) hsquare
      have hcount : i + j + 1 + n / 2 * (j + j + 1 + 1) = i + n * (j + 1) := by
        conv_rhs => rw [show n = 2 * (n / 2) + 1 by omega]
        ring
      have hpower : v * w * (w * w) ^ (n / 2) = v * w ^ n := by
        conv_rhs => rw [show n = 2 * (n / 2) + 1 by omega]
        ring
      rw [hcount, hpower] at hmore
      simpa only [hodd, if_true] using hmore
    · have hmore := ih (n / 2) hhalf hv hww hz hsquare
      have hcount : i + n / 2 * (j + j + 1 + 1) = i + n * (j + 1) := by
        conv_rhs => rw [show n = 2 * (n / 2) by omega]
        ring
      have hpower : v * (w * w) ^ (n / 2) = v * w ^ n := by
        conv_rhs => rw [show n = 2 * (n / 2) by omega]
        ring
      rw [hcount, hpower] at hmore
      simpa only [hodd, if_false] using hmore

theorem stands_powFive (hprec : 0 < prec) (n : Nat) :
    Stands (2 ^ (1 - (prec : ℤ))) (2 * n + 1) (5 ^ n) (powFive prec n) := by
  have hunit : (0 : ℚ) ≤ 2 ^ (1 - (prec : ℤ)) := by positivity
  have hinteger : ∀ k : Nat, scaled (Nat.pow 5 k) 0 = 5 ^ k := by
    intro k
    rw [Nat.pow_eq]
    simp [scaled]
  have hone : ∀ k : Nat, 1 ≤ scaled (Nat.pow 5 k) 0 := by
    intro k
    rw [hinteger]
    exact one_le_pow₀ (by norm_num)
  unfold powFive
  simp only
  split
  -- up to the twenty-seventh the power is exact and rounded once
  · have hround := stands_round hprec le_rfl (hone n)
    rw [hinteger] at hround
    exact hround.mono hunit (by positivity) (by omega)
  · rename_i hn
    have hstart := stands_round hprec le_rfl (hone 27)
    rw [hinteger] at hstart
    have hfactor : Stands (2 ^ (1 - (prec : ℤ))) 1 5 (round (prec + 64) false 5 0) := by
      have hfiner : (2 : ℚ) ^ (1 - ((prec + 64 : Nat) : ℤ)) ≤ 2 ^ (1 - (prec : ℤ)) :=
        zpow_le_zpow_right₀ (by norm_num) (by push_cast; omega)
      have hvalue : scaled 5 0 = 5 := by simp [scaled]
      have hround := stands_round (show 0 < prec + 64 by omega) hfiner (n := 5) (e := 0)
        (by rw [hvalue]; norm_num)
      rwa [hvalue] at hround
    have hgo := stands_go hprec le_rfl (bitLength (n - 27)) (n - 27) (lt_two_pow_bitLength _)
      (one_le_pow₀ (by norm_num)) (by norm_num) hstart hfactor
    have hpower : (5 : ℚ) ^ 27 * 5 ^ (n - 27) = 5 ^ n := by
      rw [← pow_add]
      congr 1
      omega
    rw [hpower] at hgo
    exact hgo.mono hunit (by positivity) (by omega)

end Stands

/-! ## 3. Reading -/

/-- Dividing by a number that is close to what it stands for. -/
theorem abs_div_sub_le {u : ℚ} (hu : 0 ≤ u) {j : Nat} (hj : 2 * j * u ≤ 1) {a b r : ℚ}
    (ha : 0 ≤ a) (hb : 0 < b) (hr : 0 < r) (h : Close u j b r) :
    |a / r - a / b| ≤ a / b * (2 * j * u) := by
  have hbound := one_add_pow_le hu hj
  have hone : (1 : ℚ) ≤ (1 + u) ^ j := one_le_pow₀ (by linarith)
  obtain ⟨hlow, hhigh⟩ := h
  generalize (1 + u) ^ j = c at *
  generalize 2 * (j : ℚ) * u = ε at *
  have hquotient : 0 ≤ a / b := div_nonneg ha hb.le
  have hratio : a / r = a / b * (b / r) := by field_simp
  -- the quotient is off by the factor that the divisor is off by, in the other direction
  have hupper : b / r ≤ c := by
    rw [div_le_iff₀ hr]
    linarith
  have hlower : 2 - c ≤ b / r := by
    rw [le_div_iff₀ hr]
    nlinarith
  have hdiff : a / r - a / b = a / b * (b / r - 1) := by
    rw [hratio]
    ring
  rw [hdiff, abs_mul, abs_of_nonneg hquotient]
  refine mul_le_mul_of_nonneg_left ?_ hquotient
  rw [abs_le]
  constructor <;> linarith

/-- Multiplying by a number that is close to what it stands for. -/
theorem abs_mul_sub_le {u : ℚ} (hu : 0 ≤ u) {j : Nat} (hj : 2 * j * u ≤ 1) {a b r : ℚ} (ha : 0 ≤ a)
    (hb : 0 ≤ b) (hr : 0 ≤ r) (h : Close u j b r) : |a * r - a * b| ≤ a * b * (2 * j * u) := by
  have hbound := one_add_pow_le hu hj
  have hone : (1 : ℚ) ≤ (1 + u) ^ j := one_le_pow₀ (by linarith)
  obtain ⟨hlow, hhigh⟩ := h
  generalize (1 + u) ^ j = c at *
  generalize 2 * (j : ℚ) * u = ε at *
  have hupper : r ≤ b * (1 + ε) := hhigh.trans (mul_le_mul_of_nonneg_left hbound hb)
  have hlower : b * (1 - ε) ≤ r := by
    calc b * (1 - ε) ≤ r * (1 + ε) * (1 - ε) :=
          mul_le_mul_of_nonneg_right (hlow.trans (mul_le_mul_of_nonneg_left hbound hr))
            (by linarith)
      _ = r * (1 - ε * ε) := by ring
      _ ≤ r := mul_le_of_le_one_right hr (by nlinarith)
  rw [← mul_sub, abs_mul, abs_of_nonneg ha, mul_assoc]
  refine mul_le_mul_of_nonneg_left ?_ ha
  rw [abs_le]
  constructor <;> linarith

/-- A power of five in bounds has a small exponent. -/
theorem lt_exponentBound {u : ℚ} (hu : 0 ≤ u) (hsmall : u ≤ 1 / 4) {n : Nat} {r : ℚ}
    (hbounded : r < 2 ^ (exponentBound - 1)) (hclose : 5 ^ n ≤ r * (1 + u) ^ (2 * n + 1)) :
    (n : Int) < exponentBound := by
  have hfactors : (1 + u) ^ (2 * n + 1) ≤ 2 ^ ((n : ℤ) + 1) := by
    have hsquare : (1 + u) ^ 2 ≤ 2 := by nlinarith
    calc (1 + u) ^ (2 * n + 1) = ((1 + u) ^ 2) ^ n * (1 + u) := by rw [pow_succ, pow_mul]
      _ ≤ 2 ^ n * 2 := mul_le_mul (pow_le_pow_left₀ (by positivity) hsquare n) (by linarith)
          (by linarith) (by positivity)
      _ = 2 ^ ((n : ℤ) + 1) := by rw [two_zpow_add, zpow_natCast, zpow_one]
  have hfour : (2 : ℚ) ^ (2 * n : ℤ) ≤ 5 ^ n := by
    rw [zpow_mul, zpow_natCast]
    exact pow_le_pow_left₀ (by norm_num) (by norm_num) n
  have hlt : (2 : ℚ) ^ (2 * n : ℤ) < 2 ^ (exponentBound - 1 + ((n : ℤ) + 1)) := by
    rw [two_zpow_add]
    calc (2 : ℚ) ^ (2 * n : ℤ) ≤ r * (1 + u) ^ (2 * n + 1) := hfour.trans hclose
      _ < 2 ^ (exponentBound - 1) * (1 + u) ^ (2 * n + 1) :=
          mul_lt_mul_of_pos_right hbounded (by positivity)
      _ ≤ 2 ^ (exponentBound - 1) * 2 ^ ((n : ℤ) + 1) :=
          mul_le_mul_of_nonneg_left hfactors (by positivity)
  have := (zpow_lt_zpow_iff_right₀ (by norm_num : (1 : ℚ) < 2)).mp hlt
  omega

/-- The precision of the powers of five. -/
def powerPrecision : Nat := textPrecision + 64

/-- So many factors make an error far below the precision of what is read. -/
theorem powerError_le {n : Nat} (hn : (n : Int) < exponentBound) :
    2 * (2 * n + 1 : Nat) * (2 : ℚ) ^ (1 - (powerPrecision : ℤ)) ≤ 2 ^ (-540 : ℤ) := by
  have hcount : (2 : ℚ) * (2 * n + 1 : Nat) ≤ 2 ^ (35 : ℤ) := by
    have hnat : 2 * (2 * n + 1) ≤ 34359738368 := by
      unfold exponentBound at hn
      omega
    norm_num
    exact_mod_cast hnat
  rw [show (1 - (powerPrecision : ℤ)) = -575 from rfl, show (-540 : ℤ) = 35 + -575 by rfl,
    two_zpow_add]
  exact mul_le_mul_of_nonneg_right hcount (by positivity)

/-- If the power of five is infinite, then it is out of bounds, or nearly so. -/
theorem tooLarge_of_infinite {n : Nat}
    (h : 2 ^ (exponentBound - 1) ≤
      (5 : ℚ) ^ n * (1 + 2 ^ (1 - (powerPrecision : ℤ))) ^ (2 * n + 1)) :
    2 ^ (exponentBound - 2) ≤ (5 : ℚ) ^ n := by
  by_cases hn : (n : Int) < exponentBound
  · have herror := powerError_le hn
    have htiny : (2 : ℚ) ^ (-540 : ℤ) ≤ 1 := zpow_le_one_of_nonpos₀ (by norm_num) (by norm_num)
    have hfactors := one_add_pow_le (by positivity) (herror.trans htiny)
    have hhalf : (2 : ℚ) ^ (exponentBound - 1) = 2 * 2 ^ (exponentBound - 2) := by
      rw [← zpow_one_add₀ two_ne_zero]
      rfl
    have hle : (5 : ℚ) ^ n * (1 + 2 ^ (1 - (powerPrecision : ℤ))) ^ (2 * n + 1) ≤ 5 ^ n * 2 :=
      mul_le_mul_of_nonneg_left (by linarith) (by positivity)
    rw [hhalf] at h
    generalize (2 : ℚ) ^ (exponentBound - 2) = c at *
    linarith
  · calc (2 : ℚ) ^ (exponentBound - 2) ≤ 2 ^ (n : ℤ) := zpow_le_zpow_right₀ (by norm_num) (by omega)
      _ = 2 ^ n := zpow_natCast 2 n
      _ ≤ 5 ^ n := pow_le_pow_left₀ (by norm_num) (by norm_num) n

/-- What is read of `± q`, where `q` has a factor of so many tens. -/
inductive ReadSize (neg : Bool) (q : ℚ) (ten : Int) : Binary → Prop where
  | next {v r : ℚ} {b : Binary} (close : |v - q| ≤ q * 2 ^ (-540 : ℤ))
      (near : Near textPrecision v r) (rounded : Rounded textPrecision neg v r b) :
      ReadSize neg q ten b
  | unbounded (tooLarge : 2 ^ (exponentBound - 2) ≤ (5 : ℚ) ^ ten.natAbs) :
      ReadSize neg q ten ⟨textPrecision, neg, if ten < 0 then .zero else .infinite⟩

theorem ten_zpow_eq {ten : Int} (h : ten < 0) : (10 : ℚ) ^ ten = 2 ^ ten / 5 ^ ten.natAbs := by
  have hten : ten = -(ten.natAbs : ℤ) := by omega
  rw [show (10 : ℚ) = 2 * 5 by norm_num, mul_zpow, div_eq_mul_inv, ← zpow_natCast,
    ← zpow_neg, ← hten]

theorem ten_zpow_eq' {ten : Int} (h : 0 ≤ ten) : (10 : ℚ) ^ ten = 2 ^ ten * 5 ^ ten.natAbs := by
  have hten : ten = (ten.natAbs : ℤ) := by omega
  rw [show (10 : ℚ) = 2 * 5 by norm_num, mul_zpow, ← zpow_natCast, ← hten]

section Scientific

variable {n m : Nat} {ten two f : Int}

/-- A power of five in bounds has few factors. -/
theorem factors_lt {k : Nat} (hbounded : scaled m f < 2 ^ (exponentBound - 1))
    (hclose : Close (2 ^ (1 - (powerPrecision : ℤ))) (2 * k + 1) (5 ^ k) (scaled m f)) :
    (k : Int) < exponentBound := by
  refine lt_exponentBound (by positivity) ?_ hbounded hclose.1
  have hle : (2 : ℚ) ^ (1 - (powerPrecision : ℤ)) ≤ 2 ^ (-2 : ℤ) :=
    zpow_le_zpow_right₀ (by norm_num) (by decide)
  norm_num at hle ⊢
  exact hle

/-- Behind the point there is a quotient. -/
theorem quotient_close (n : Nat) (two : Int) (hm : m ≠ 0) (hneg : ten < 0)
    (hcount : (ten.natAbs : Int) < exponentBound)
    (hclose : Close (2 ^ (1 - (powerPrecision : ℤ))) (2 * ten.natAbs + 1) (5 ^ ten.natAbs)
      (scaled m f)) :
    |(n : ℚ) / m * 2 ^ (ten + two - f) - n * 10 ^ ten * 2 ^ two| ≤
      n * 10 ^ ten * 2 ^ two * 2 ^ (-540 : ℤ) := by
  have hv : (n : ℚ) / m * 2 ^ (ten + two - f) = n * 2 ^ (ten + two) / scaled m f := by
    rw [zpow_sub₀ two_ne_zero, scaled]
    field_simp
  have hq : (n : ℚ) * 10 ^ ten * 2 ^ two = n * 2 ^ (ten + two) / 5 ^ ten.natAbs := by
    rw [ten_zpow_eq hneg, two_zpow_add]
    ring
  have herror := powerError_le hcount
  have htiny : (2 : ℚ) ^ (-540 : ℤ) ≤ 1 := zpow_le_one_of_nonpos₀ (by norm_num) (by norm_num)
  rw [hv, hq]
  have hdiv := abs_div_sub_le (a := n * 2 ^ (ten + two)) (by positivity) (herror.trans htiny)
    (by positivity) (by positivity) (scaled_pos hm f) hclose
  exact hdiv.trans (mul_le_mul_of_nonneg_left herror (by positivity))

/-- Before the point there is a product. -/
theorem product_close (n : Nat) (two : Int) (hm : m ≠ 0) (hpos : 0 ≤ ten)
    (hcount : (ten.natAbs : Int) < exponentBound)
    (hclose : Close (2 ^ (1 - (powerPrecision : ℤ))) (2 * ten.natAbs + 1) (5 ^ ten.natAbs)
      (scaled m f)) :
    |scaled (n * m) (ten + two + f) - n * 10 ^ ten * 2 ^ two| ≤
      n * 10 ^ ten * 2 ^ two * 2 ^ (-540 : ℤ) := by
  have hq : (n : ℚ) * 10 ^ ten * 2 ^ two = n * 2 ^ (ten + two) * 5 ^ ten.natAbs := by
    rw [ten_zpow_eq' hpos, two_zpow_add]
    ring
  have herror := powerError_le hcount
  have htiny : (2 : ℚ) ^ (-540 : ℤ) ≤ 1 := zpow_le_one_of_nonpos₀ (by norm_num) (by norm_num)
  rw [scaled_mul, hq]
  have hmul := abs_mul_sub_le (a := n * 2 ^ (ten + two)) (by positivity) (herror.trans htiny)
    (by positivity) (by positivity) (scaled_pos hm f).le hclose
  exact hmul.trans (mul_le_mul_of_nonneg_left herror (by positivity))

variable (neg : Bool) (hn : n ≠ 0) (hleast : -exponentBound ≤ bitLength n + (ten + two))
  (hgreatest : bitLength n + (ten + two) < exponentBound)
include hn hleast hgreatest

theorem ofScientific?_of_whole (hten : ten = 0) :
    ofScientific? neg n ten two = some (round textPrecision neg n (ten + two)) := by
  unfold ofScientific?
  simp only [hn, if_false, Int.not_lt.mpr hleast, Int.not_le.mpr hgreatest, decide_false,
    Bool.or_self, Bool.false_eq_true]
  exact if_pos hten

theorem ofScientific?_of_finite (hten : ten ≠ 0)
    (hpower : (powFive powerPrecision ten.natAbs).size = .finite m f) :
    ofScientific? neg n ten two = some (if ten < 0
      then roundQuotient textPrecision neg n m (ten + two - f)
      else round textPrecision neg (n * m) (ten + two + f)) := by
  unfold ofScientific?
  simp only [hn, if_false, Int.not_lt.mpr hleast, Int.not_le.mpr hgreatest, decide_false,
    Bool.or_self, Bool.false_eq_true, hten]
  rw [powerPrecision] at hpower
  rw [hpower]
  by_cases hneg : ten < 0 <;> simp only [hneg, if_true, if_false]

theorem ofScientific?_of_infinite (hten : ten ≠ 0)
    (hpower : (powFive powerPrecision ten.natAbs).size = .infinite) :
    ofScientific? neg n ten two =
      some ⟨textPrecision, neg, if ten < 0 then .zero else .infinite⟩ := by
  unfold ofScientific?
  simp only [hn, if_false, Int.not_lt.mpr hleast, Int.not_le.mpr hgreatest, decide_false,
    Bool.or_self, Bool.false_eq_true, hten]
  rw [powerPrecision] at hpower
  rw [hpower]
  by_cases hneg : ten < 0 <;> simp only [hneg, if_true, if_false, infinity]

/-- Digits in bounds are read as a number next to what they stand for. -/
theorem ofScientific?_reads :
    ∃ b, ofScientific? neg n ten two = some b ∧ ReadSize neg (n * 10 ^ ten * 2 ^ two) ten b := by
  by_cases hten : ten = 0
  · obtain ⟨r, hnear, hrounded⟩ := round_near (by decide : 0 < textPrecision) neg hn (ten + two)
    refine ⟨_, ofScientific?_of_whole neg hn hleast hgreatest hten, .next ?_ hnear hrounded⟩
    rw [scaled, hten, zero_add, zpow_zero, mul_one, sub_self, abs_zero]
    positivity
  · have hpower := stands_powFive (by decide : 0 < powerPrecision) ten.natAbs
    generalize hp : powFive powerPrecision ten.natAbs = p at hpower
    cases hpower with
    | infinite tooLarge =>
      exact ⟨_, ofScientific?_of_infinite neg hn hleast hgreatest hten (congrArg Binary.size hp),
        .unbounded (tooLarge_of_infinite tooLarge)⟩
    | @finite _ m f one bounded close =>
      have hm : m ≠ 0 := by
        rintro rfl
        norm_num [scaled] at one
      have hcount := factors_lt bounded close
      refine ⟨_, ofScientific?_of_finite neg hn hleast hgreatest hten (congrArg Binary.size hp), ?_⟩
      -- a negative power of five is divided by, any other is multiplied with
      split
      · obtain ⟨r, hnear, hrounded⟩ :=
          roundQuotient_near (by decide : 0 < textPrecision) neg hn hm (ten + two - f)
        exact .next (quotient_close n two hm ‹_› hcount close) hnear hrounded
      · obtain ⟨r, hnear, hrounded⟩ :=
          round_near (by decide : 0 < textPrecision) neg (Nat.mul_ne_zero hn hm) (ten + two + f)
        exact .next (product_close n two hm (not_lt.mp ‹_›) hcount close) hnear hrounded

end Scientific

/-! ## 4. Numbers that are spelled -/

/-- What the digits and exponents stand for, without the sign. -/
def Spelling.size (s : Spelling) : ℚ := s.digits * 10 ^ s.ten * 2 ^ s.two

/-- Whether the exponent of the digits alone, without the power of five, is in bounds. -/
def Spelling.InBounds (s : Spelling) : Prop :=
  s.digits = 0 ∨ -exponentBound ≤ bitLength s.digits + (s.ten + s.two) ∧
    bitLength s.digits + (s.ten + s.two) < exponentBound

/-- What a number that is spelled may be read as: a number of 512 bits next to it, exact if it has
no more than 509 of them, or what is left of it if an exponent is out of bounds. -/
inductive Spelling.Reads (s : Spelling) : Magnitude → Prop where
  | finite {m : Nat} {e : Int} (close : |scaled m e - s.size| ≤ s.size * 2 ^ (-509 : ℤ))
      (exact : ∀ n f, n < 2 ^ 509 → s.size = scaled n f → scaled m e = s.size) :
      s.Reads (.finite m e)
  | zero (tooSmall : s.size < 2 ^ (1 - exponentBound)) : s.Reads .zero
  | infinite (tooLarge : 2 ^ (exponentBound - 2) ≤ s.size) : s.Reads .infinite
  | unbounded (tooLarge : 2 ^ (exponentBound - 2) ≤ (5 : ℚ) ^ s.ten.natAbs) :
      s.Reads (if s.ten < 0 then .zero else .infinite)

section Near

variable {q v r : ℚ}

theorem two_zpow_neg_le {k : Int} (h : k ≤ -4) : (2 : ℚ) ^ k ≤ 1 / 16 := by
  have hle : (2 : ℚ) ^ k ≤ 2 ^ (-4 : ℤ) := zpow_le_zpow_right₀ (by norm_num) h
  norm_num at hle ⊢
  exact hle

/-- Two small errors make a small error. -/
theorem Near.abs_sub_le_of_close (hnear : Near textPrecision v r) (hpos : 0 ≤ q)
    (hclose : |v - q| ≤ q * 2 ^ (-540 : ℤ)) : |r - q| ≤ q * 2 ^ (-509 : ℤ) := by
  have hr : |r - v| ≤ v * 2 ^ (-510 : ℤ) := hnear.close
  have hdouble : (2 : ℚ) ^ (-509 : ℤ) = 2 * 2 ^ (-510 : ℤ) := by
    rw [← zpow_one_add₀ two_ne_zero]
    rfl
  have htiny : (2 : ℚ) ^ (-540 : ℤ) ≤ 1 / 16 * 2 ^ (-510 : ℤ) := by
    rw [show (-540 : ℤ) = -30 + -510 by rfl, two_zpow_add]
    exact mul_le_mul_of_nonneg_right (two_zpow_neg_le (by norm_num)) (by positivity)
  have hsmall : (2 : ℚ) ^ (-510 : ℤ) ≤ 1 / 16 := two_zpow_neg_le (by norm_num)
  have hunit : (0 : ℚ) < 2 ^ (-510 : ℤ) := by positivity
  rw [hdouble]
  -- δ is what rounding costs, and ε what the power of five has cost before
  generalize (2 : ℚ) ^ (-510 : ℤ) = δ at *
  generalize (2 : ℚ) ^ (-540 : ℤ) = ε at *
  have hε : q * ε ≤ q * (1 / 16 * δ) := mul_le_mul_of_nonneg_left htiny hpos
  have hδ : q * δ ≤ q * (1 / 16) := mul_le_mul_of_nonneg_left hsmall hpos
  have hv : v ≤ 2 * q := by
    rw [abs_le] at hclose
    linarith
  have hvδ : v * δ ≤ (q + q * ε) * δ := by
    rw [abs_le] at hclose
    exact mul_le_mul_of_nonneg_right (by linarith) hunit.le
  have hqεδ : q * ε * δ ≤ q * ε * 1 := by
    refine mul_le_mul_of_nonneg_left (by linarith) ?_
    have := (abs_nonneg _).trans hclose
    linarith
  calc |r - q| ≤ |r - v| + |v - q| := abs_sub_le r v q
    _ ≤ (q + q * ε) * δ + q * ε := add_le_add (hr.trans hvδ) hclose
    _ ≤ q * (2 * δ) := by
      have hqδ := mul_nonneg hpos hunit.le
      linarith

theorem Near.eq_of_few_bits (hnear : Near textPrecision v r) (hpos : 0 < q)
    (hclose : |v - q| ≤ q * 2 ^ (-540 : ℤ)) {n : Nat} {f : Int}
    (hn : n < 2 ^ (textPrecision - 3)) (hq : q = scaled n f) : r = q := by
  have hzero : n ≠ 0 := by
    rintro rfl
    rw [hq] at hpos
    norm_num [scaled] at hpos
  subst hq
  refine hnear.exact hzero hn (by decide) (hclose.trans ?_)
  refine mul_le_mul_of_nonneg_left ?_ hpos.le
  exact zpow_le_zpow_right₀ (by norm_num) (by decide)

end Near

theorem ReadSize.prec_eq {neg : Bool} {q : ℚ} {ten : Int} {b : Binary} (h : ReadSize neg q ten b) :
    b.prec = textPrecision ∧ b.neg = neg := by
  cases h with
  | next _ _ rounded => exact rounded.prec_eq
  | unbounded => exact ⟨rfl, rfl⟩

/-- What is read of a number is what may be read of it. -/
theorem ReadSize.reads {s : Spelling} {b : Binary} (h : ReadSize s.neg s.size s.ten b)
    (hpos : 0 < s.size) : s.Reads b.size := by
  cases h with
  | unbounded tooLarge => exact .unbounded tooLarge
  | @next v r _ close near rounded =>
    have hclose := near.abs_sub_le_of_close hpos.le close
    have htiny : (2 : ℚ) ^ (-540 : ℤ) ≤ 1 / 16 := two_zpow_neg_le (by norm_num)
    have htiny' : (2 : ℚ) ^ (-509 : ℤ) ≤ 1 / 16 := two_zpow_neg_le (by norm_num)
    -- a number is dropped or unbounded only if what it stands for is near the bound as well
    cases rounded with
    | finite size bounded =>
      subst size
      exact .finite hclose fun n f hn hq =>
        near.eq_of_few_bits hpos close (by rwa [show textPrecision - 3 = 509 from rfl]) hq
    | zero tooSmall =>
      refine .zero ?_
      have hdouble : (2 : ℚ) ^ (1 - exponentBound) = 2 * 2 ^ (-exponentBound) := by
        rw [← zpow_one_add₀ two_ne_zero, sub_eq_add_neg]
      rw [hdouble]
      generalize (2 : ℚ) ^ (-exponentBound) = c at *
      generalize (2 : ℚ) ^ (-540 : ℤ) = ε at *
      have hε : s.size * ε ≤ s.size * (1 / 16) := mul_le_mul_of_nonneg_left htiny hpos.le
      rw [abs_le] at close
      linarith
    | infinite tooLarge =>
      refine .infinite ?_
      have hdouble : (2 : ℚ) ^ (exponentBound - 1) = 2 * 2 ^ (exponentBound - 2) := by
        rw [← zpow_one_add₀ two_ne_zero]
        rfl
      rw [hdouble] at tooLarge
      generalize (2 : ℚ) ^ (exponentBound - 2) = c at *
      generalize (2 : ℚ) ^ (-509 : ℤ) = δ at *
      have hδ : s.size * δ ≤ s.size * (1 / 16) := mul_le_mul_of_nonneg_left htiny' hpos.le
      rw [abs_le] at hclose
      linarith

theorem Spelling.size_pos {s : Spelling} (h : s.digits ≠ 0) : 0 < s.size := by
  have hdigits : (0 : ℚ) < s.digits := by exact_mod_cast Nat.pos_of_ne_zero h
  unfold Spelling.size
  positivity

/-- A number that is spelled is read exactly if its exponent is in bounds. -/
theorem Spells.parse? {s : String} {n : Spelling} (h : Spells n s.toList) :
    (∀ b, Binary.parse? s = some b → n.InBounds ∧ b.prec = textPrecision ∧ b.neg = n.neg ∧
      n.Reads b.size) ∧ (n.InBounds → ∃ b, Binary.parse? s = some b) := by
  rw [parse?_of_spells h]
  by_cases hzero : n.digits = 0
  · have hread : ofScientific? n.neg n.digits n.ten n.two = some ⟨textPrecision, n.neg, .zero⟩ := by
      simp [ofScientific?, hzero]
    have hsize : n.size = 0 := by simp [Spelling.size, hzero]
    rw [hread]
    refine ⟨fun b hb => ?_, fun _ => ⟨_, rfl⟩⟩
    cases hb
    refine ⟨.inl hzero, rfl, rfl, .zero ?_⟩
    rw [hsize]
    positivity
  · by_cases hbounds : -exponentBound ≤ bitLength n.digits + (n.ten + n.two) ∧
        bitLength n.digits + (n.ten + n.two) < exponentBound
    · obtain ⟨b, hb, hreads⟩ := ofScientific?_reads n.neg hzero hbounds.1 hbounds.2
      rw [hb]
      refine ⟨fun b' hb' => ?_, fun _ => ⟨_, rfl⟩⟩
      cases hb'
      exact ⟨.inr hbounds, hreads.prec_eq.1, hreads.prec_eq.2,
        hreads.reads (Spelling.size_pos hzero)⟩
    · have hnone : ofScientific? n.neg n.digits n.ten n.two = none := by
        unfold ofScientific?
        simp only [hzero, if_false]
        rw [if_pos]
        simp only [Bool.or_eq_true, decide_eq_true_eq]
        omega
      rw [hnone]
      refine ⟨fun b hb => (nomatch hb), fun h => ?_⟩
      exact absurd h (not_or.mpr ⟨hzero, hbounds⟩)

example : parse? "1e900000000" = some (infinity textPrecision false) ∧
    parse? "-1e-700000000" = some ⟨textPrecision, true, .zero⟩ ∧ parse? "1e3000000000" = none := by
  decide +kernel

end Binary

end CypherBlocks
