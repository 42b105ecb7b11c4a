import CypherBlocks.Proofs.NumberText
import Mathlib.Algebra.Order.Field.Power
import Mathlib.Algebra.Order.Field.Rat
import Mathlib.Tactic.FieldSimp
import Mathlib.Tactic.GCongr
import Mathlib.Tactic.Linarith
import Mathlib.Tactic.Positivity
import Mathlib.Tactic.Ring

/-!
# What rounding does to a number

A shift that rounds gives the nearest integer, the even one of two.  From this follows how far a
number of a chosen precision is from what it stands for and which double a number is rounded to.
Sizes are rational numbers here.
-/

namespace CypherBlocks

namespace Binary

/-! ## 1. The nearest integer -/

/-- Which of the two integers around `n / 2^(k+1)` is taken. -/
theorem shiftRound_succ (n k : Nat) :
    (shiftRound n (k + 1) = n / 2 ^ (k + 1) ∧
      (n % 2 ^ (k + 1) < 2 ^ k ∨ n % 2 ^ (k + 1) = 2 ^ k ∧ n / 2 ^ (k + 1) % 2 = 0)) ∨
    (shiftRound n (k + 1) = n / 2 ^ (k + 1) + 1 ∧
      (2 ^ k < n % 2 ^ (k + 1) ∨ n % 2 ^ (k + 1) = 2 ^ k ∧ n / 2 ^ (k + 1) % 2 = 1)) := by
  have hmod : n - n / 2 ^ (k + 1) * 2 ^ (k + 1) = n % 2 ^ (k + 1) := by
    have hdiv := Nat.div_add_mod' n (2 ^ (k + 1))
    omega
  unfold shiftRound
  simp only [Nat.add_one_ne_zero, if_false, Nat.shiftRight_eq_div_pow, Nat.shiftLeft_eq,
    Nat.one_mul, Nat.add_sub_cancel, hmod]
  split
  · rename_i hup
    simp only [gt_iff_lt, Bool.or_eq_true, decide_eq_true_eq, Bool.and_eq_true, beq_iff_eq] at hup
    exact .inr ⟨rfl, hup⟩
  · rename_i hdown
    simp only [gt_iff_lt, Bool.or_eq_true, decide_eq_true_eq, Bool.and_eq_true, beq_iff_eq, not_or,
      not_lt, not_and] at hdown
    refine .inl ⟨rfl, ?_⟩
    rcases Nat.lt_or_eq_of_le hdown.1 with hlt | heq
    · exact .inl hlt
    · have hodd := hdown.2 heq
      exact .inr ⟨heq, by omega⟩

/-- The integer that is taken is at most a half away. -/
theorem shiftRound_near (n k : Nat) :
    2 * (shiftRound n k * 2 ^ k) ≤ 2 * n + 2 ^ k ∧
      2 * n ≤ 2 * (shiftRound n k * 2 ^ k) + 2 ^ k := by
  cases k with
  | zero => simp [shiftRound]
  | succ k =>
    have hdiv := Nat.div_add_mod' n (2 ^ (k + 1))
    have hmod : n % 2 ^ (k + 1) < 2 ^ (k + 1) := Nat.mod_lt _ (Nat.two_pow_pos _)
    have hpow : 2 ^ (k + 1) = 2 * 2 ^ k := by rw [Nat.pow_succ, Nat.mul_comm]
    rcases shiftRound_succ n k with ⟨heq, hlow⟩ | ⟨heq, hhigh⟩
    · rw [heq]
      omega
    · rw [heq, Nat.add_mul, Nat.one_mul]
      omega

/-- An integer at most a half away, and even if it is just a half, is the one that is taken. -/
theorem shiftRound_eq {n k c : Nat} (hlow : 2 * (c * 2 ^ k) ≤ 2 * n + 2 ^ k)
    (hhigh : 2 * n ≤ 2 * (c * 2 ^ k) + 2 ^ k)
    (htie : 2 * (c * 2 ^ k) = 2 * n + 2 ^ k ∨ 2 * n = 2 * (c * 2 ^ k) + 2 ^ k → c % 2 = 0) :
    shiftRound n k = c := by
  cases k with
  | zero =>
    simp only [shiftRound, if_true]
    omega
  | succ k =>
    have hdiv := Nat.div_add_mod' n (2 ^ (k + 1))
    have hmod : n % 2 ^ (k + 1) < 2 ^ (k + 1) := Nat.mod_lt _ (Nat.two_pow_pos _)
    have hpow : 2 ^ (k + 1) = 2 * 2 ^ k := by rw [Nat.pow_succ, Nat.mul_comm]
    have hpos : 0 < 2 ^ k := Nat.two_pow_pos k
    generalize hq : n / 2 ^ (k + 1) = q at hdiv
    -- only the two integers around the quotient are near enough
    have hc : c = q ∨ c = q + 1 := by
      by_contra hne
      rcases Nat.lt_or_ge c q with hlt | hge
      · have hmul : (c + 1) * 2 ^ (k + 1) ≤ q * 2 ^ (k + 1) := Nat.mul_le_mul_right _ hlt
        rw [Nat.add_mul, Nat.one_mul] at hmul
        omega
      · have hmul : (q + 2) * 2 ^ (k + 1) ≤ c * 2 ^ (k + 1) := Nat.mul_le_mul_right _ (by omega)
        rw [Nat.add_mul] at hmul
        omega
    rcases shiftRound_succ n k with ⟨heq, hr⟩ | ⟨heq, hr⟩
    · rw [heq, hq]
      rw [hq] at hr
      rcases hc with rfl | rfl
      · rfl
      · rw [Nat.add_mul, Nat.one_mul] at hlow hhigh htie
        omega
    · rw [heq, hq]
      rw [hq] at hr
      rcases hc with rfl | rfl
      · omega
      · rfl

/-! ## 2. Numbers of a chosen precision -/

/-- The size `m · 2^e`. -/
def scaled (m : Nat) (e : Int) : ℚ := m * 2 ^ e

theorem two_zpow_add (a b : ℤ) : (2 : ℚ) ^ (a + b) = 2 ^ a * 2 ^ b := zpow_add₀ two_ne_zero a b

theorem scaled_one (e : Int) : scaled 1 e = 2 ^ e := by
  rw [scaled, Nat.cast_one, one_mul]

theorem scaled_pos {m : Nat} (hm : m ≠ 0) (e : Int) : 0 < scaled m e := by
  have hpos : (0 : ℚ) < m := by exact_mod_cast Nat.pos_of_ne_zero hm
  unfold scaled
  positivity

/-- A factor of two may stand with the mantissa or in the exponent. -/
theorem scaled_mul_pow (m k : Nat) (e : Int) : scaled (m * 2 ^ k) e = scaled m (e + k) := by
  unfold scaled
  rw [two_zpow_add, zpow_natCast]
  push_cast
  ring

/-- A size on a finer grid. -/
theorem scaled_finer {k : Nat} {e f : Int} (h : f = e + k) (m : Nat) :
    scaled m f = scaled (m * 2 ^ k) e := by
  rw [scaled_mul_pow, h]

theorem scaled_le_scaled {m n : Nat} {e : Int} : scaled m e ≤ scaled n e ↔ m ≤ n := by
  have hpos : (0 : ℚ) < 2 ^ e := by positivity
  unfold scaled
  rw [mul_le_mul_iff_left₀ hpos, Nat.cast_le]

theorem scaled_inj {m n : Nat} {e : Int} : scaled m e = scaled n e ↔ m = n := by
  rw [le_antisymm_iff, scaled_le_scaled, scaled_le_scaled, ← Nat.le_antisymm_iff]

theorem scaled_lt_scaled {m n : Nat} {e : Int} : scaled m e < scaled n e ↔ m < n := by
  rw [← not_le, scaled_le_scaled, not_le]

/-- Multiples that are less than a step of their grid apart are the same. -/
theorem eq_of_scaled_near {m n : Nat} {e : Int} (h : |scaled m e - scaled n e| < 2 ^ e) :
    m = n := by
  have hpos : (0 : ℚ) < 2 ^ e := by positivity
  have hsame : |(m : ℚ) - n| < 1 := by
    unfold scaled at h
    rw [← sub_mul, abs_mul, abs_of_pos hpos] at h
    exact (mul_lt_iff_lt_one_left hpos).mp h
  have hint : |(m : ℤ) - n| < 1 := by exact_mod_cast hsame
  rw [Int.abs_lt_one_iff] at hint
  omega

/-- A power of two lies on every grid that is finer, so a size is compared with it by the
mantissa. -/
theorem two_zpow_le_scaled {k n : Nat} {e f : Int} (h : f = e + k) :
    (2 : ℚ) ^ f ≤ scaled n e ↔ 2 ^ k ≤ n := by
  rw [← scaled_one, scaled_finer h, scaled_le_scaled, Nat.one_mul]

theorem scaled_lt_two_zpow {k n : Nat} {e f : Int} (h : f = e + k) :
    scaled n e < (2 : ℚ) ^ f ↔ n < 2 ^ k := by
  rw [← not_le, two_zpow_le_scaled h, not_le]

theorem two_pow_le_of_bitLength {n : Nat} (hn : n ≠ 0) : 2 ^ (bitLength n - 1) ≤ n := by
  unfold bitLength
  rw [if_neg hn, Nat.add_sub_cancel]
  exact Nat.log2_self_le hn

theorem lt_two_pow_bitLength (n : Nat) : n < 2 ^ bitLength n := bitLength_le_iff.mp le_rfl

theorem bitLength_pos {n : Nat} (hn : n ≠ 0) : 0 < bitLength n := by
  unfold bitLength
  rw [if_neg hn]
  exact Nat.succ_pos _

/-- A size lies between two powers of two. -/
theorem scaled_bounds {n : Nat} (hn : n ≠ 0) (e : Int) :
    (2 : ℚ) ^ (e + bitLength n - 1) ≤ scaled n e ∧ scaled n e < 2 ^ (e + bitLength n) := by
  have hlow : ((2 : ℚ) ^ (bitLength n - 1) : ℚ) ≤ n := by exact_mod_cast two_pow_le_of_bitLength hn
  have hhigh : (n : ℚ) < 2 ^ bitLength n := by exact_mod_cast lt_two_pow_bitLength n
  have hpos : (0 : ℚ) < 2 ^ e := by positivity
  have hexp : e + bitLength n - 1 = ((bitLength n - 1 : Nat) : ℤ) + e := by
    have := bitLength_pos hn
    omega
  unfold scaled
  constructor
  · rw [hexp, two_zpow_add, zpow_natCast]
    exact mul_le_mul_of_nonneg_right hlow hpos.le
  · rw [add_comm, two_zpow_add, zpow_natCast]
    exact mul_lt_mul_of_pos_right hhigh hpos

/-! ## 3. What a size is rounded to -/

/-- The size that is left of `n · 2^e` with so many bits. -/
def roundedSize (prec n : Nat) (e : Int) : ℚ :=
  scaled (shiftRound n (bitLength n - prec)) (e + (bitLength n - prec : Nat))

/-- A size is rounded to the grid on which it has as many bits as the precision, or kept if it has
fewer. -/
theorem roundedSize_grid (prec n : Nat) (e : Int) :
    (∃ c : Nat, roundedSize prec n e = scaled c (e + bitLength n - prec)) ∧
      |roundedSize prec n e - scaled n e| ≤ 1 / 2 * 2 ^ (e + bitLength n - prec) := by
  unfold roundedSize
  -- bits beyond the precision are rounded away; a shorter number lies on a finer grid than it needs
  rcases Nat.le_total prec (bitLength n) with hle | hle
  · have hexp : e + bitLength n - prec = e + (bitLength n - prec : Nat) := by omega
    refine ⟨⟨_, by rw [hexp]⟩, ?_⟩
    obtain ⟨hlow, hhigh⟩ := shiftRound_near n (bitLength n - prec)
    generalize bitLength n - prec = k at *
    have hlow : 2 * ((shiftRound n k : ℚ) * 2 ^ k) ≤ 2 * n + 2 ^ k := by exact_mod_cast hlow
    have hhigh : 2 * (n : ℚ) ≤ 2 * (shiftRound n k * 2 ^ k) + 2 ^ k := by exact_mod_cast hhigh
    have hpos : (0 : ℚ) < 2 ^ e := by positivity
    have hdiff : scaled (shiftRound n k) (e + k) - scaled n e =
        (shiftRound n k * 2 ^ k - n) * 2 ^ e := by
      rw [← scaled_mul_pow]
      unfold scaled
      push_cast
      ring
    rw [hexp, hdiff, abs_mul, abs_of_pos hpos, add_comm, two_zpow_add, zpow_natCast, ← mul_assoc]
    refine mul_le_mul_of_nonneg_right ?_ hpos.le
    rw [abs_le]
    constructor <;> linarith
  · have hk : bitLength n - prec = 0 := Nat.sub_eq_zero_of_le hle
    have hsame : scaled (shiftRound n (bitLength n - prec)) (e + (bitLength n - prec : Nat)) =
        scaled n e := by
      rw [hk]
      simp [shiftRound]
    have hexp : e = e + bitLength n - prec + (prec - bitLength n : Nat) := by omega
    rw [hsame]
    refine ⟨⟨n * 2 ^ (prec - bitLength n), ?_⟩, ?_⟩
    · rw [scaled_mul_pow, ← hexp]
    · rw [sub_self, abs_zero]
      positivity

theorem div_le_shiftRound (n k : Nat) : n / 2 ^ k ≤ shiftRound n k := by
  cases k with
  | zero => simp [shiftRound]
  | succ k =>
    rcases shiftRound_succ n k with ⟨heq, -⟩ | ⟨heq, -⟩
    · exact heq.ge
    · rw [heq]
      exact Nat.le_succ _

/-- Rounding does not go below the power of two under a size. -/
theorem two_zpow_le_roundedSize {prec n : Nat} (hprec : 0 < prec) (hn : n ≠ 0) (e : Int) :
    (2 : ℚ) ^ (e + bitLength n - 1) ≤ roundedSize prec n e := by
  have hlength := bitLength_pos hn
  have hshift : bitLength n - prec ≤ bitLength n - 1 := by omega
  generalize hk : bitLength n - prec = k at hshift
  unfold roundedSize
  rw [hk, two_zpow_le_scaled
    (show e + bitLength n - 1 = e + k + (bitLength n - 1 - k : Nat) by omega)]
  refine le_trans ?_ (div_le_shiftRound n k)
  rw [Nat.le_div_iff_mul_le (Nat.two_pow_pos k), ← Nat.pow_add, Nat.sub_add_cancel hshift]
  exact two_pow_le_of_bitLength hn

/-- What a number becomes whose size is `v` and rounded to `r`. -/
inductive Rounded (prec : Nat) (neg : Bool) (v r : ℚ) : Binary → Prop where
  | zero (tooSmall : v < 2 ^ (-exponentBound)) : Rounded prec neg v r ⟨prec, neg, .zero⟩
  | finite {m : Nat} {e : Int} (size : scaled m e = r) (bounded : r < 2 ^ (exponentBound - 1)) :
      Rounded prec neg v r ⟨prec, neg, .finite m e⟩
  | infinite (tooLarge : 2 ^ (exponentBound - 1) ≤ r) : Rounded prec neg v r (infinity prec neg)

theorem two_zpow_le_scaled_iff {m : Nat} (hm : m ≠ 0) {e t : Int} :
    (2 : ℚ) ^ (t - 1) ≤ scaled m e ↔ t ≤ bitLength m + e := by
  obtain ⟨hlow, hhigh⟩ := scaled_bounds hm e
  constructor
  · intro h
    have := (zpow_lt_zpow_iff_right₀ (by norm_num : (1 : ℚ) < 2)).mp (h.trans_lt hhigh)
    omega
  · intro h
    exact (zpow_le_zpow_right₀ (by norm_num) (by omega)).trans hlow

theorem mantissa_ne_zero {prec n : Nat} (hprec : 0 < prec) (hn : n ≠ 0) :
    shiftRound n (bitLength n - prec) ≠ 0 := by
  intro hm
  have hle := two_zpow_le_roundedSize hprec hn 0
  have hpos : (0 : ℚ) < 2 ^ (0 + (bitLength n : ℤ) - 1) := by positivity
  have hzero : roundedSize prec n 0 = 0 := by simp [roundedSize, hm, scaled]
  linarith

/-- A size at hand is rounded, unless it is too small. -/
theorem rounded_round {prec : Nat} (hprec : 0 < prec) {n : Nat} (neg : Bool) (hn : n ≠ 0) (e : Int)
    {v : ℚ} (hsmall : bitLength n + e < -exponentBound → v < 2 ^ (-exponentBound)) :
    Rounded prec neg v (roundedSize prec n e) (round prec neg n e) := by
  have hm := mantissa_ne_zero hprec hn
  unfold round
  by_cases hlow : bitLength n + e < -exponentBound
  · rw [if_pos (by simp [hlow])]
    exact .zero (hsmall hlow)
  · rw [if_neg (by simp [hn, hlow])]
    simp only
    split
    · rename_i hhigh
      exact .infinite ((two_zpow_le_scaled_iff hm).mpr hhigh)
    · rename_i hhigh
      refine .finite rfl (lt_of_not_ge fun hge => hhigh ?_)
      exact (two_zpow_le_scaled_iff hm).mp hge

theorem Rounded.prec_eq {prec : Nat} {neg : Bool} {v r : ℚ} {b : Binary}
    (h : Rounded prec neg v r b) : b.prec = prec ∧ b.neg = neg := by
  cases h <;> exact ⟨rfl, rfl⟩

/-- Between the bounds the number is what the size is rounded to. -/
theorem Rounded.eq_finite {prec : Nat} {neg : Bool} {v r : ℚ} {b : Binary}
    (h : Rounded prec neg v r b) (hleast : 2 ^ (-exponentBound) ≤ v)
    (hgreatest : r < 2 ^ (exponentBound - 1)) :
    ∃ (m : Nat) (e : Int), b = ⟨prec, neg, .finite m e⟩ ∧ scaled m e = r := by
  cases h with
  | zero tooSmall => exact absurd hleast (not_le.mpr tooSmall)
  | finite size => exact ⟨_, _, rfl, size⟩
  | infinite tooLarge => exact absurd hgreatest (not_lt.mpr tooLarge)

/-- A number on a grid that is fine enough for the precision, and hardly more than half a step of it
away. -/
def Near (prec : Nat) (v r : ℚ) : Prop :=
  ∃ (t : Int) (c : Nat), r = scaled c t ∧ |r - v| ≤ 5 / 8 * 2 ^ t ∧ (2 : ℚ) ^ (t + prec - 2) ≤ v ∧
    v ≤ 2 ^ (t + prec + 1)

/-- A size with no more bits than the precision allows has the one that it is rounded to next to
it. -/
theorem near_roundedSize (prec : Nat) {n : Nat} (hn : n ≠ 0) (e : Int) :
    Near prec (scaled n e) (roundedSize prec n e) := by
  obtain ⟨⟨c, hgrid⟩, hdiff⟩ := roundedSize_grid prec n e
  obtain ⟨hlow, hhigh⟩ := scaled_bounds hn e
  refine ⟨e + bitLength n - prec, c, hgrid, hdiff.trans ?_, ?_, ?_⟩
  · exact mul_le_mul_of_nonneg_right (by norm_num) (by positivity)
  · refine le_trans ?_ hlow
    exact zpow_le_zpow_right₀ (by norm_num) (by omega)
  · refine hhigh.le.trans ?_
    exact zpow_le_zpow_right₀ (by norm_num) (by omega)

theorem round_near {prec : Nat} (hprec : 0 < prec) {n : Nat} (neg : Bool) (hn : n ≠ 0) (e : Int) :
    ∃ r, Near prec (scaled n e) r ∧ Rounded prec neg (scaled n e) r (round prec neg n e) := by
  refine ⟨_, near_roundedSize prec hn e, rounded_round hprec neg hn e fun hlow => ?_⟩
  exact (scaled_bounds hn e).2.trans_le (zpow_le_zpow_right₀ (by norm_num) (by omega))

/-- The quotient with its spare bits: an integer of more bits than the precision, less than one
away. -/
theorem quotient_bits (prec : Nat) {a b : Nat} (ha : a ≠ 0) (hb : b ≠ 0) :
    2 ^ (prec + 1) ≤ a <<< (prec + 2 + bitLength b - bitLength a) / b := by
  have hlow := two_pow_le_of_bitLength ha
  have hhigh := lt_two_pow_bitLength b
  have hpos := bitLength_pos ha
  rw [Nat.shiftLeft_eq, Nat.le_div_iff_mul_le (Nat.pos_of_ne_zero hb)]
  calc 2 ^ (prec + 1) * b ≤ 2 ^ (prec + 1) * 2 ^ bitLength b := Nat.mul_le_mul_left _ hhigh.le
    _ = 2 ^ (prec + 1 + bitLength b) := (Nat.pow_add ..).symm
    _ ≤ 2 ^ (bitLength a - 1 + (prec + 2 + bitLength b - bitLength a)) :=
        Nat.pow_le_pow_right (by omega) (by omega)
    _ = 2 ^ (bitLength a - 1) * 2 ^ (prec + 2 + bitLength b - bitLength a) := Nat.pow_add ..
    _ ≤ a * 2 ^ (prec + 2 + bitLength b - bitLength a) := Nat.mul_le_mul_right _ hlow

/-- The sticky bit keeps a quotient that was cut off at most one away from twice the exact one. -/
theorem sticky_quotient_near (x : Nat) {b : Nat} (hb : b ≠ 0) :
    |((2 * (x / b) + if x % b = 0 then 0 else 1 : Nat) : ℚ) - 2 * (x / b)| ≤ 1 := by
  have hdivmod := Nat.div_add_mod x b
  have hmod := Nat.mod_lt x (Nat.pos_of_ne_zero hb)
  generalize x / b = q at *
  generalize x % b = r at *
  have hbpos : (0 : ℚ) < b := by exact_mod_cast Nat.pos_of_ne_zero hb
  have hquotient : (x : ℚ) / b = q + r / b := by
    have hcast : (x : ℚ) = b * q + r := by exact_mod_cast hdivmod.symm
    rw [hcast, add_div, mul_div_cancel_left₀ _ hbpos.ne']
  rw [hquotient]
  by_cases hr : r = 0
  · rw [if_pos hr, hr]
    push_cast
    rw [zero_div, add_zero, add_zero, sub_self, abs_zero]
    exact zero_le_one
  · have hfraction : (r : ℚ) / b ≤ 1 := by
      rw [div_le_one hbpos]
      exact_mod_cast hmod.le
    have hnonneg : (0 : ℚ) ≤ r / b := by positivity
    rw [if_neg hr]
    push_cast
    rw [abs_le]
    constructor <;> linarith

theorem two_pow_mul_le {k : Nat} {f t : Int} (h : f + k ≤ t) : (2 : ℚ) ^ k * 2 ^ f ≤ 2 ^ t := by
  rw [← zpow_natCast, mul_comm, ← two_zpow_add]
  exact zpow_le_zpow_right₀ (by norm_num) h

/-- A number with three bits to spare may be one unit away from what it stands for: what it is
rounded to is near that too. -/
theorem round_near_of_close {prec : Nat} (hprec : 0 < prec) {n : Nat} (neg : Bool)
    (hspare : prec + 3 ≤ bitLength n) {f : Int} {v : ℚ} (hclose : |scaled n f - v| ≤ 2 ^ f) :
    ∃ r, Near prec v r ∧ Rounded prec neg v r (round prec neg n f) := by
  have hn : n ≠ 0 := by
    rintro rfl
    exact absurd hspare (Nat.not_succ_le_zero _)
  obtain ⟨⟨c, hgrid⟩, hdiff⟩ := roundedSize_grid prec n f
  obtain ⟨hlow, hhigh⟩ := scaled_bounds hn f
  -- the unit is an eighth of a step of the grid, and a quarter of the least size with as many bits
  have heighth : (2 : ℚ) ^ 3 * 2 ^ f ≤ 2 ^ (f + bitLength n - prec) := two_pow_mul_le (by omega)
  have hsmall : (2 : ℚ) ^ 2 * 2 ^ f ≤ 2 ^ (f + bitLength n - 1) := two_pow_mul_le (by omega)
  have hhalf : (2 : ℚ) * 2 ^ (f + bitLength n - prec + prec - 2) = 2 ^ (f + bitLength n - 1) := by
    rw [← zpow_one_add₀ two_ne_zero]
    congr 1
    omega
  have hnext : (2 : ℚ) * 2 ^ (f + bitLength n) = 2 ^ (f + bitLength n + 1) := by
    rw [← zpow_one_add₀ two_ne_zero]
    congr 1
    omega
  have hdouble : (2 : ℚ) ^ (f + bitLength n - prec + prec + 1) = 2 * 2 ^ (f + bitLength n) := by
    rw [hnext]
    congr 1
    omega
  have hmore : (2 : ℚ) ^ (f + bitLength n - 1) ≤ 2 ^ (f + bitLength n) :=
    zpow_le_zpow_right₀ (by norm_num) (by omega)
  have hunit : (0 : ℚ) < 2 ^ f := by positivity
  rw [abs_le] at hclose hdiff
  refine ⟨_, ⟨f + bitLength n - prec, c, hgrid, abs_le.mpr ⟨?_, ?_⟩, ?_, ?_⟩,
    rounded_round hprec neg hn f fun hless => ?_⟩
  · linarith
  · linarith
  · linarith
  · linarith
  · have hbound : (2 : ℚ) ^ (f + bitLength n + 1) ≤ 2 ^ (-exponentBound) :=
      zpow_le_zpow_right₀ (by norm_num) (by omega)
    linarith

theorem roundQuotient_near {prec : Nat} (hprec : 0 < prec) {a b : Nat} (neg : Bool) (ha : a ≠ 0)
    (hb : b ≠ 0) (e : Int) :
    ∃ r, Near prec (a / b * 2 ^ e) r ∧
      Rounded prec neg (a / b * 2 ^ e) r (roundQuotient prec neg a b e) := by
  have hbits := quotient_bits prec ha hb
  unfold roundQuotient
  simp only
  generalize prec + 2 + bitLength b - bitLength a = k at *
  have hsticky := sticky_quotient_near (a <<< k) hb
  generalize hn : 2 * ((a <<< k) / b) + (if (a <<< k) % b = 0 then 0 else 1) = n at hsticky
  -- the quotient has two bits more than the precision, and the sticky bit makes it three
  have hspare : prec + 3 ≤ bitLength n := by
    have hlow : 2 ^ (prec + 2) ≤ n := by
      rw [Nat.pow_succ, ← hn]
      omega
    by_contra hlt
    have hsmall : bitLength n ≤ prec + 2 := by omega
    have := bitLength_le_iff.mp hsmall
    omega
  generalize hf : e - k - 1 = f
  refine round_near_of_close hprec neg hspare ?_
  have hunit : (0 : ℚ) < 2 ^ f := by positivity
  have hv : (a : ℚ) / b * 2 ^ e = 2 * ((a <<< k : Nat) / b) * 2 ^ f := by
    have he : e = f + k + 1 := by omega
    rw [he, two_zpow_add, two_zpow_add, zpow_natCast, zpow_one, Nat.shiftLeft_eq]
    push_cast
    ring
  rw [hv, scaled, ← sub_mul, abs_mul, abs_of_pos hunit]
  exact mul_le_of_le_one_left hunit.le hsticky

theorem Near.close {prec : Nat} {v r : ℚ} (h : Near prec v r) :
    |r - v| ≤ v * 2 ^ (2 - (prec : ℤ)) := by
  obtain ⟨t, c, -, hdiff, hlow, -⟩ := h
  have hstep : (2 : ℚ) ^ t = 2 ^ (t + prec - 2) * 2 ^ (2 - (prec : ℤ)) := by
    rw [← two_zpow_add]
    congr 1
    omega
  have hpos : (0 : ℚ) < 2 ^ t := by positivity
  calc |r - v| ≤ 2 ^ t := by linarith
    _ ≤ v * 2 ^ (2 - (prec : ℤ)) := by
      rw [hstep]
      exact mul_le_mul_of_nonneg_right hlow (by positivity)

/-- A number that has few bits is what a number next to it is rounded to. -/
theorem Near.exact {prec : Nat} {v r : ℚ} (h : Near prec v r) {m : Nat} {x : Int} (hm : m ≠ 0)
    (hbits : m < 2 ^ (prec - 3)) (hprec : 3 < prec)
    (hv : |v - scaled m x| ≤ scaled m x * 2 ^ (-(prec : ℤ) - 4)) : r = scaled m x := by
  obtain ⟨t, c, rfl, hdiff, hlow, hhigh⟩ := h
  obtain ⟨-, hbound⟩ := scaled_bounds hm x
  have hlength := bitLength_le_iff.mpr hbits
  have hWpos := scaled_pos hm x
  have htpos : (0 : ℚ) < 2 ^ t := by positivity
  have htiny : (2 : ℚ) ^ (-(prec : ℤ) - 4) ≤ 1 / 16 := by
    have hle : (2 : ℚ) ^ (-(prec : ℤ) - 4) ≤ 2 ^ (-4 : ℤ) :=
      zpow_le_zpow_right₀ (by norm_num) (by omega)
    norm_num at hle ⊢
    exact hle
  have hhalf : |v - scaled m x| ≤ scaled m x / 2 := by
    refine hv.trans ?_
    nlinarith
  -- the grid is finer than the last bit of the number
  have ht : t ≤ x := by
    by_contra hlt
    have hle : (2 : ℚ) ^ (x + bitLength m) ≤ 2 ^ (t + prec - 3) :=
      zpow_le_zpow_right₀ (by norm_num) (by omega)
    have hdouble : (2 : ℚ) ^ (t + prec - 2) = 2 * 2 ^ (t + prec - 3) := by
      rw [← zpow_one_add₀ two_ne_zero]
      congr 1
      omega
    rw [abs_le] at hhalf
    linarith
  have hquarter : |v - scaled m x| ≤ 1 / 4 * 2 ^ t := by
    have hstep : (2 : ℚ) ^ (t + prec + 1) * 2 ^ (-(prec : ℤ) - 4) = 1 / 8 * 2 ^ t := by
      rw [← two_zpow_add, show t + prec + 1 + (-(prec : ℤ) - 4) = t + (-3) by omega, two_zpow_add]
      norm_num
      ring
    have hW : scaled m x ≤ 2 * 2 ^ (t + prec + 1) := by
      rw [abs_le] at hhalf
      linarith
    calc |v - scaled m x| ≤ scaled m x * 2 ^ (-(prec : ℤ) - 4) := hv
      _ ≤ 2 * 2 ^ (t + prec + 1) * 2 ^ (-(prec : ℤ) - 4) :=
          mul_le_mul_of_nonneg_right hW (by positivity)
      _ = 1 / 4 * 2 ^ t := by rw [mul_assoc, hstep]; ring
  have hgrid : scaled m x = scaled (m * 2 ^ (x - t).toNat) t := scaled_finer (by omega) m
  rw [hgrid] at hquarter ⊢
  have hdist : |scaled c t - scaled (m * 2 ^ (x - t).toNat) t| < 2 ^ t := by
    rw [abs_le] at hdiff hquarter
    rw [abs_lt]
    constructor <;> linarith
  rw [eq_of_scaled_near hdist]

/-- The number of bits and the exponent say between which powers of two a size lies. -/
theorem lt_of_scaled_lt {n : Nat} (hn : n ≠ 0) {f e : Int} (h : scaled n f < 2 ^ e) :
    f + bitLength n ≤ e := by
  have hlow := (scaled_bounds hn f).1.trans_lt h
  have := (zpow_lt_zpow_iff_right₀ (by norm_num : (1 : ℚ) < 2)).mp hlow
  omega

theorem lt_of_le_scaled {n : Nat} (hn : n ≠ 0) {f e : Int} (h : 2 ^ e ≤ scaled n f) :
    e < f + bitLength n := by
  have hhigh := h.trans_lt (scaled_bounds hn f).2
  exact (zpow_lt_zpow_iff_right₀ (by norm_num : (1 : ℚ) < 2)).mp hhigh

end Binary

/-! ## 4. The nearest double -/

namespace Double

open Binary

/-- Rounding to a grid: the mantissa that is nearest on it, the even one of two. -/
def gridMantissa (n : Nat) (e target : Int) : Nat :=
  if target ≤ e then n <<< (e - target).toNat else shiftRound n (target - e).toNat

theorem gridMantissa_eq {m n : Nat} {e f : Int} (hm : m ≠ 0)
    (hlow : scaled (2 * m - 1) (e - 1) ≤ scaled n f)
    (hhigh : scaled n f ≤ scaled (2 * m + 1) (e - 1))
    (hodd : m % 2 = 1 → scaled (2 * m - 1) (e - 1) ≠ scaled n f ∧
      scaled n f ≠ scaled (2 * m + 1) (e - 1)) : gridMantissa (2 * n) (f - 1) e = m := by
  unfold gridMantissa
  by_cases hle : e ≤ f - 1
  · -- both ends and the number are on the grid of half steps
    have hn : scaled n f = scaled (n * 2 ^ (f - (e - 1)).toNat) (e - 1) := scaled_finer (by omega) n
    rw [hn, scaled_le_scaled] at hlow hhigh
    rw [if_pos hle, Nat.shiftLeft_eq, show (f - (e - 1)).toNat = (f - 1 - e).toNat + 1 + 1 by omega,
      Nat.pow_succ, Nat.pow_succ] at *
    generalize 2 ^ (f - 1 - e).toNat = c at *
    have hassoc : n * (c * 2 * 2) = 2 * (2 * n * c) := by ring
    omega
  · have hfiner : ∀ c, scaled c (e - 1) = scaled (c * 2 ^ (e - (f - 1)).toNat) (f - 2) :=
      scaled_finer (by omega)
    have hlowEq := hfiner (2 * m - 1)
    have hhighEq := hfiner (2 * m + 1)
    have hn : scaled n f = scaled (n * 2 ^ 2) (f - 2) := scaled_finer (by omega) n
    rw [hlowEq, hhighEq, hn, ne_eq, ne_eq, scaled_inj, scaled_inj] at hodd
    rw [hlowEq, hn, scaled_le_scaled] at hlow
    rw [hhighEq, hn, scaled_le_scaled] at hhigh
    rw [if_neg hle]
    have hsub : (2 * m - 1) * 2 ^ (e - (f - 1)).toNat =
        2 * (m * 2 ^ (e - (f - 1)).toNat) - 2 ^ (e - (f - 1)).toNat := by
      rw [Nat.sub_mul, Nat.one_mul, Nat.mul_assoc]
    have hadd : (2 * m + 1) * 2 ^ (e - (f - 1)).toNat =
        2 * (m * 2 ^ (e - (f - 1)).toNat) + 2 ^ (e - (f - 1)).toNat := by
      rw [Nat.add_mul, Nat.one_mul, Nat.mul_assoc]
    rw [hsub, hadd] at hodd
    rw [hsub] at hlow
    rw [hadd] at hhigh
    have hge : 2 ^ (e - (f - 1)).toNat ≤ m * 2 ^ (e - (f - 1)).toNat :=
      Nat.le_mul_of_pos_left _ (Nat.pos_of_ne_zero hm)
    refine shiftRound_eq (by omega) (by omega) fun htie => ?_
    omega

theorem bitLength_two_mul {n : Nat} (hn : n ≠ 0) : bitLength (2 * n) = bitLength n + 1 := by
  unfold bitLength
  rw [if_neg hn, if_neg (by omega), Nat.log2_two_mul hn]

/-- The grid on which a number has the bits of a double. -/
def gridOf (n : Nat) (f : Int) : Int := max minExponent (f + bitLength n - mantissaBits)

/-- A double is a number rounded to its grid, where a carry moves to the next grid. -/
theorem ofBinary_finite (prec : Nat) (neg : Bool) {n : Nat} {f : Int} (hn : n ≠ 0)
    (hlow : minExponent - 2 ≤ f + bitLength n) (hhigh : f ≤ maxExponent + 2000) :
    ofBinary ⟨prec, neg, .finite n f⟩ =
      if gridMantissa (2 * n) (f - 1) (gridOf n f) = 2 ^ mantissaBits then
        if maxExponent < gridOf n f + 1 then .infinite neg
        else .finite neg (2 ^ (mantissaBits - 1)) (gridOf n f + 1)
      else if maxExponent < gridOf n f then .infinite neg
      else .finite neg (gridMantissa (2 * n) (f - 1) (gridOf n f)) (gridOf n f) := by
  have htarget : max minExponent (f - 1 + bitLength (2 * n) - mantissaBits) = gridOf n f := by
    rw [gridOf, bitLength_two_mul hn]
    congr 1
    omega
  have hleft : (decide (n = 0) || decide (f + bitLength n < minExponent - 2)) = false := by
    simp [hn, hlow]
  unfold ofBinary
  simp only [hleft, Bool.false_eq_true, if_false, if_neg (Int.not_lt.mpr hhigh)]
  unfold round
  simp only [Bool.false_eq_true, if_false, Nat.add_zero, if_neg (show 2 * n ≠ 0 by omega), htarget]
  rw [show (if gridOf n f ≤ f - 1 then (2 * n) <<< (f - 1 - gridOf n f).toNat
    else shiftRound (2 * n) (gridOf n f - (f - 1)).toNat) = gridMantissa (2 * n) (f - 1)
    (gridOf n f) from rfl]
  by_cases hcarry : gridMantissa (2 * n) (f - 1) (gridOf n f) = 2 ^ mantissaBits
  · simp only [hcarry, Nat.pow_eq, if_true]
  · simp only [hcarry, Nat.pow_eq, if_false]

theorem minExponent_eq : minExponent = -1074 := rfl
theorem maxExponent_eq : maxExponent = 971 := rfl
theorem mantissaBits_eq : mantissaBits = 53 := rfl

/-- A double is what each number is rounded to that is not further away than half a step, a half
being near enough if the mantissa is even. -/
theorem ofBinary_eq (prec : Nat) (neg : Bool) {m n : Nat} {e f : Int} (hform : IsForm m e)
    (hm : m ≠ 0) (hstep : ¬IsStep m e) (hn : n ≠ 0)
    (hlow : scaled (2 * m - 1) (e - 1) ≤ scaled n f)
    (hhigh : scaled n f ≤ scaled (2 * m + 1) (e - 1))
    (hodd : m % 2 = 1 → scaled (2 * m - 1) (e - 1) ≠ scaled n f ∧
      scaled n f ≠ scaled (2 * m + 1) (e - 1)) :
    ofBinary ⟨prec, neg, .finite n f⟩ = .finite neg m e := by
  obtain ⟨hmant, hmin, hmax, hfull⟩ := hform
  rw [minExponent_eq] at *
  rw [maxExponent_eq] at *
  have hmant : m < 2 ^ 53 := hmant
  have hfull : 2 ^ 52 ≤ m ∨ e = -1074 := hfull
  have hstep : ¬(m = 2 ^ 52 ∧ -1074 < e) := hstep
  -- the bounds determine how long the number is, and thereby the grid that it is rounded to
  have htop : f + bitLength n ≤ e + 53 := by
    refine lt_of_scaled_lt hn (hhigh.trans_lt ?_)
    rw [scaled_lt_two_zpow (k := 54) (by omega)]
    omega
  have hbottom : e - 1 < f + bitLength n := by
    refine lt_of_le_scaled hn (le_trans ?_ hlow)
    rw [← scaled_one, scaled_le_scaled]
    omega
  have hgrid : gridOf n f = e := by
    unfold gridOf
    rw [minExponent_eq, mantissaBits_eq]
    -- on the finest grid the mantissa may be short
    by_cases he : e = -1074
    · omega
    · have hfirst : e + 52 < f + bitLength n := by
        refine lt_of_le_scaled hn (le_trans ?_ hlow)
        rw [two_zpow_le_scaled (k := 53) (by omega)]
        omega
      omega
  have hf : f ≤ e + 53 := by omega
  rw [ofBinary_finite prec neg hn (by rw [minExponent_eq]; omega) (by rw [maxExponent_eq]; omega),
    hgrid, gridMantissa_eq hm hlow hhigh hodd, if_neg (by rw [mantissaBits_eq]; omega),
    if_neg (by rw [maxExponent_eq]; omega)]

/-- The first double of an exponent is what a number is rounded to that is not further away than a
quarter of a step below or half a step above. -/
theorem ofBinary_step (prec : Nat) (neg : Bool) {n : Nat} {e f : Int} (hmin : minExponent < e)
    (hmax : e ≤ maxExponent) (hn : n ≠ 0) (hlow : scaled (2 ^ 54 - 1) (e - 2) ≤ scaled n f)
    (hhigh : scaled n f ≤ scaled (2 ^ 53 + 1) (e - 1)) :
    ofBinary ⟨prec, neg, .finite n f⟩ = .finite neg (2 ^ 52) e := by
  rw [minExponent_eq] at hmin
  rw [maxExponent_eq] at hmax
  have htop : f + bitLength n ≤ e + 53 := by
    refine lt_of_scaled_lt hn (hhigh.trans_lt ?_)
    rw [scaled_lt_two_zpow (k := 54) (by omega)]
    omega
  have hbottom : e + 51 < f + bitLength n := by
    refine lt_of_le_scaled hn (le_trans ?_ hlow)
    rw [two_zpow_le_scaled (k := 53) (by omega)]
    omega
  have hfinite := ofBinary_finite prec neg hn (f := f) (by rw [minExponent_eq]; omega)
    (by rw [maxExponent_eq]; omega)
  rw [hfinite]
  rcases (show f + bitLength n = e + 53 ∨ f + bitLength n = e + 52 by omega) with hsame | hbelow
  · have hgrid : gridOf n f = e := by
      unfold gridOf
      rw [minExponent_eq, mantissaBits_eq]
      omega
    have hlow' : scaled (2 * 2 ^ 52 - 1) (e - 1) ≤ scaled n f := by
      refine le_trans ?_ hlow
      rw [scaled_finer (k := 1) (show e - 1 = e - 2 + (1 : Nat) by omega), scaled_le_scaled]
      omega
    rw [hgrid, gridMantissa_eq (m := 2 ^ 52) (by omega) hlow'
        (by rwa [show 2 * 2 ^ 52 = 2 ^ 53 by rfl]) (by omega),
      if_neg (by rw [mantissaBits_eq]; omega), if_neg (by rw [maxExponent_eq]; omega)]
  · -- the number lies on the finer grid below and its mantissa is carried over to the first one
    -- of this grid
    have hgrid : gridOf n f = e - 1 := by
      unfold gridOf
      rw [minExponent_eq, mantissaBits_eq]
      omega
    have hlow' : scaled (2 * 2 ^ 53 - 1) (e - 1 - 1) ≤ scaled n f := by
      rwa [show 2 * 2 ^ 53 = 2 ^ 54 by rfl, show e - 1 - 1 = e - 2 by omega]
    have hhigh' : scaled n f ≤ scaled (2 * 2 ^ 53 + 1) (e - 1 - 1) := by
      have hlt := (scaled_bounds hn f).2
      rw [hbelow] at hlt
      refine hlt.le.trans ?_
      rw [two_zpow_le_scaled (k := 54) (by omega)]
      omega
    rw [hgrid, gridMantissa_eq (m := 2 ^ 53) (by omega) hlow' hhigh' (by omega),
      if_pos (by rw [mantissaBits_eq]), if_neg (by rw [maxExponent_eq]; omega), Int.sub_add_cancel]
    rfl

end Double

end CypherBlocks
