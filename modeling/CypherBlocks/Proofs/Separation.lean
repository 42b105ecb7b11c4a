import CypherBlocks.Proofs.ShortestText
import Mathlib.Data.Nat.GCD.Basic

/-!
# How near a short decimal comes to a binary number

Two fractions with small denominators are equal or not too near.  For a power of ten over a power of
two the denominators may be large, but a good approximation with a smaller one does as well: what
has to be known about it is checked by computation, once for every sixteen exponents of a double.
So a decimal with few digits either is a given binary number or can be told from it with far fewer
than 512 bits.
-/

namespace CypherBlocks

namespace Binary

/-! ## 1. Approximations -/

theorem multiple_sub {den : Nat} (hden : 0 < den) (num n m : Nat) :
    (n : ℚ) * (num / den) - m = ((n * num - m * den : ℤ) : ℚ) / den := by
  have hne : (den : ℚ) ≠ 0 := by exact_mod_cast hden.ne'
  push_cast
  rw [sub_div, mul_div_cancel_right₀ _ hne, mul_div_assoc]

/-- Multiples of a fraction are integers or not nearer to one than the denominator allows. -/
theorem separated_of_denominator {num den bound : Nat} (hden : 0 < den) (hbound : den ≤ bound)
    (n m : Nat) : (n : ℚ) * (num / den) = m ∨ 1 ≤ |(n : ℚ) * (num / den) - m| * bound := by
  have hdenCast : (0 : ℚ) < den := by exact_mod_cast hden
  have hboundCast : (den : ℚ) ≤ bound := by exact_mod_cast hbound
  have hdiff := multiple_sub hden num n m
  by_cases hzero : (n * num - m * den : ℤ) = 0
  · left
    rw [hzero, Int.cast_zero, zero_div] at hdiff
    linarith
  · right
    have hone : (1 : ℚ) ≤ |((n * num - m * den : ℤ) : ℚ)| := by exact_mod_cast Int.one_le_abs hzero
    rw [hdiff, abs_div, abs_of_pos hdenCast, div_mul_eq_mul_div, le_div_iff₀ hdenCast, one_mul]
    exact hboundCast.trans (le_mul_of_one_le_left (hdenCast.le.trans hboundCast) hone)

/-- The same with the denominator of a good approximation, for multiples that are smaller than
it. -/
theorem separated_of_approximation {num den p q limit n : Nat} (hcoprime : Nat.Coprime p q)
    (hden : 0 < den) (hnear : |(q * num - p * den : ℤ)| * (2 * limit) ≤ den) (hlimit : limit < q)
    (hn : n ≠ 0) (hnlimit : n ≤ limit) (m : Nat) : 1 ≤ |(n : ℚ) * (num / den) - m| * (2 * q) := by
  have hdenCast : (0 : ℚ) < den := by exact_mod_cast hden
  -- the approximation has a denominator that the multiple does not cancel
  have hne : (n * p - m * q : ℤ) ≠ 0 := by
    intro heq
    have hmul : n * p = m * q := by
      have : (n * p : ℤ) = m * q := by linarith
      exact_mod_cast this
    have hdvd : q ∣ n := (hcoprime.symm.dvd_of_dvd_mul_right (Dvd.intro_left m hmul.symm))
    exact absurd (Nat.le_of_dvd (Nat.pos_of_ne_zero hn) hdvd) (by omega)
  have hidentity : (den * (n * p - m * q) : ℤ) =
      q * (n * num - m * den) - n * (q * num - p * den) := by
    ring
  have hfirst : (den : ℤ) ≤ q * |(n * num - m * den : ℤ)| + n * |(q * num - p * den : ℤ)| := by
    calc (den : ℤ) ≤ den * |(n * p - m * q : ℤ)| :=
        le_mul_of_one_le_right (Int.natCast_nonneg den) (Int.one_le_abs hne)
      _ = |(den * (n * p - m * q) : ℤ)| := by rw [abs_mul, Nat.abs_cast]
      _ ≤ |(q * (n * num - m * den) : ℤ)| + |(n * (q * num - p * den) : ℤ)| := by
        rw [hidentity]
        exact abs_sub _ _
      _ = q * |(n * num - m * den : ℤ)| + n * |(q * num - p * den : ℤ)| := by
          rw [abs_mul, abs_mul, Nat.abs_cast, Nat.abs_cast]
  have hsecond : (n : ℤ) * |(q * num - p * den : ℤ)| ≤ limit * |(q * num - p * den : ℤ)| :=
    mul_le_mul_of_nonneg_right (by exact_mod_cast hnlimit) (abs_nonneg _)
  have hboth : (den : ℤ) ≤ |(n * num - m * den : ℤ)| * (2 * q) := by linarith
  have hboth : (den : ℚ) ≤ |((n * num - m * den : ℤ) : ℚ)| * (2 * q) := by exact_mod_cast hboth
  have hdiff := multiple_sub hden num n m
  rw [hdiff, abs_div, abs_of_pos hdenCast, div_mul_eq_mul_div, le_div_iff₀ hdenCast, one_mul]
  exact hboth

/-! ## 2. Powers of ten over powers of two -/

/-- The decimal place on which numbers with exponents from `16 t` to `16 t + 15` are compared. -/
def place (t : Int) : Int := (16 * t + 53) * 30103 / 100000 - 17

/-- The fraction `10^(place t) / 2^(16 t)`. -/
def ratioNum (t : Int) : Nat := 5 ^ (place t).toNat * 2 ^ (place t - 16 * t).toNat

def ratioDen (t : Int) : Nat := 5 ^ (-place t).toNat * 2 ^ (16 * t - place t).toNat

theorem pow_toNat_div {b : ℚ} (hb : b ≠ 0) (z : ℤ) : b ^ z.toNat / b ^ (-z).toNat = b ^ z := by
  rw [← zpow_natCast, ← zpow_natCast, ← zpow_sub₀ hb]
  congr 1
  omega

theorem ratioDen_pos (t : Int) : 0 < ratioDen t :=
  Nat.mul_pos (Nat.pow_pos (by omega)) (Nat.two_pow_pos _)

theorem ratio_eq (t : Int) : (ratioNum t : ℚ) / ratioDen t = 10 ^ place t / 2 ^ (16 * t) := by
  unfold ratioNum ratioDen
  push_cast
  rw [mul_div_mul_comm, pow_toNat_div (by norm_num), ← neg_sub (place t), pow_toNat_div two_ne_zero,
    zpow_sub₀ two_ne_zero, ← mul_div_assoc, ← mul_zpow]
  norm_num

/-- The multiples that are considered. -/
def multiples : Nat := 10 ^ 24

/-- The denominator of the first good approximation of `a / b` above a bound, as Euclid's algorithm
gives them. -/
def denominator (bound : Nat) : Nat → Nat → Nat → Nat → Nat → Nat
  | 0, _, _, _, q => q
  | fuel + 1, a, b, q, q' =>
    bif Nat.ble bound q' then q' else denominator bound fuel b (a % b) q' (a / b * q' + q)

/-- An approximation with a denominator above the multiples, and as near as is needed. -/
def IsGood (num den p q : Nat) : Prop :=
  Nat.gcd p q = 1 ∧ multiples < q ∧ q ≤ 2 ^ 429 ∧
    (q * num - p * den + (p * den - q * num)) * (2 * multiples) ≤ den

instance (num den p q : Nat) : Decidable (IsGood num den p q) := inferInstanceAs (Decidable (_ ∧ _))

/-- What has to be known about the fraction: its size, and that it has a small denominator or a good
approximation. -/
def IsApart (t : Int) : Prop :=
  10 ^ 17 * ratioNum t ≤ 2 ^ 53 * ratioDen t ∧ 2 ^ 70 * ratioDen t ≤ multiples * ratioNum t ∧
    (ratioDen t ≤ 2 ^ 430 ∨
      (fun q => IsGood (ratioNum t) (ratioDen t)
      ((2 * q * ratioNum t + ratioDen t) / (2 * ratioDen t)) q)
      (denominator (2 * multiples) 200 (ratioNum t) (ratioDen t) 1 0))

instance (t : Int) : Decidable (IsApart t) := inferInstanceAs (Decidable (_ ∧ _))

theorem isApart_table : ∀ i < 132, IsApart ((i : Nat) - 71) := by decide +kernel

theorem isApart_of_mem {x : Int} (hlow : -1127 ≤ x) (hhigh : x ≤ 970) : IsApart (x / 16) := by
  have htable := isApart_table (x / 16 + 71).toNat (by omega)
  rwa [Int.toNat_of_nonneg (by omega), Int.add_sub_cancel] at htable

theorem IsApart.separated {t : Int} (h : IsApart t) {n : Nat} (hn : n ≠ 0)
    (hlimit : n ≤ multiples) (m : Nat) :
    (n : ℚ) * (ratioNum t / ratioDen t) = m ∨
      1 ≤ |(n : ℚ) * (ratioNum t / ratioDen t) - m| * 2 ^ 430 := by
  -- a small denominator keeps apart by itself; otherwise a good approximation does
  obtain ⟨-, -, hsmall | hgood⟩ := h
  · exact_mod_cast separated_of_denominator (ratioDen_pos t) hsmall n m
  · generalize denominator (2 * multiples) 200 (ratioNum t) (ratioDen t) 1 0 = q at hgood
    obtain ⟨hcoprime, hmultiples, hq, hnear⟩ := hgood
    generalize (2 * q * ratioNum t + ratioDen t) / (2 * ratioDen t) = p at hcoprime hnear
    have hdistance : |(q * ratioNum t - p * ratioDen t : ℤ)| =
        (q * ratioNum t - p * ratioDen t + (p * ratioDen t - q * ratioNum t) : Nat) := by
      rw [← Nat.cast_mul, ← Nat.cast_mul]
      generalize q * ratioNum t = a
      generalize p * ratioDen t = b
      rcases Nat.le_total a b with hle | hle
      · rw [abs_of_nonpos (by omega)]
        omega
      · rw [abs_of_nonneg (by omega)]
        omega
    have hnear : |(q * ratioNum t - p * ratioDen t : ℤ)| * (2 * multiples) ≤ ratioDen t := by
      rw [hdistance]
      exact_mod_cast hnear
    have hone := separated_of_approximation hcoprime (ratioDen_pos t) hnear hmultiples hn hlimit m
    refine .inr (hone.trans (mul_le_mul_of_nonneg_left ?_ (abs_nonneg _)))
    have hq : (q : ℚ) ≤ 2 ^ 429 := by exact_mod_cast hq
    have hdouble : (2 : ℚ) ^ 430 = 2 * 2 ^ 429 := pow_succ' 2 429
    rw [hdouble]
    exact mul_le_mul_of_nonneg_left hq zero_le_two

theorem ten_zpow_place (t : Int) : (10 : ℚ) ^ place t = ratioNum t / ratioDen t * 2 ^ (16 * t) := by
  have hunit : (2 : ℚ) ^ (16 * t) ≠ 0 := by positivity
  rw [ratio_eq, div_mul_cancel₀ _ hunit]

/-- The place is low enough: a number of 54 bits has eighteen digits above it. -/
theorem IsApart.place_low {t : Int} (h : IsApart t) :
    (10 : ℚ) ^ (place t + 17) ≤ 2 ^ (16 * t + 53) := by
  have hden : (0 : ℚ) < ratioDen t := by exact_mod_cast ratioDen_pos t
  have hsize : (10 ^ 17 * ratioNum t : ℚ) ≤ 2 ^ 53 * ratioDen t := by exact_mod_cast h.1
  calc (10 : ℚ) ^ (place t + 17) = 10 ^ 17 * ratioNum t / ratioDen t * 2 ^ (16 * t) := by
        rw [Decimal.ten_zpow_add, ten_zpow_place]
        norm_num
        ring
    _ ≤ 2 ^ 53 * 2 ^ (16 * t) := by
        refine mul_le_mul_of_nonneg_right ?_ (by positivity)
        rwa [div_le_iff₀ hden]
    _ = 2 ^ (16 * t + 53) := by
        rw [two_zpow_add, mul_comm]
        norm_num

/-- The place is high enough: a number of 55 bits is one of the multiples that are considered. -/
theorem IsApart.place_high {t : Int} (h : IsApart t) :
    (2 : ℚ) ^ (16 * t + 70) ≤ multiples * 10 ^ place t := by
  have hden : (0 : ℚ) < ratioDen t := by exact_mod_cast ratioDen_pos t
  have hsize : (2 ^ 70 * ratioDen t : ℚ) ≤ multiples * ratioNum t := by exact_mod_cast h.2.1
  calc (2 : ℚ) ^ (16 * t + 70) = 2 ^ 70 * 2 ^ (16 * t) := by
        rw [two_zpow_add, mul_comm]
        norm_num
    _ ≤ multiples * ratioNum t / ratioDen t * 2 ^ (16 * t) := by
        refine mul_le_mul_of_nonneg_right ?_ (by positivity)
        rwa [le_div_iff₀ hden]
    _ = multiples * 10 ^ place t := by
        rw [ten_zpow_place]
        ring

/-! ## 3. Decimals with few digits -/

/-- A decimal of eighteen digits is a multiple of every place that is not above the last of them. -/
theorem OnGrid.multiple {point place : Int} {v : ℚ} (h : OnGrid point v)
    (hle : place + 18 ≤ point) : ∃ n : Nat, v = n * 10 ^ place := by
  obtain ⟨c, hc⟩ := h
  refine ⟨c * 10 ^ (point - 18 - place).toNat, ?_⟩
  push_cast
  rw [hc, ← zpow_natCast, Int.toNat_of_nonneg (by omega), mul_assoc, ← Decimal.ten_zpow_add]
  congr 2
  push_cast
  omega

/-- A decimal of at most eighteen digits is a given binary number with one of the exponents of a
double, or is not too near to it. -/
theorem separated {x : Int} (hmin : -1127 ≤ x) (hmax : x ≤ 970) {v : ℚ} {point : Int}
    (hgrid : OnGrid point v) (hpos : 0 < v) (hlow : (2 : ℚ) ^ (x + 53) < 10 ^ point)
    (hhigh : v ≤ 2 ^ (x + 55)) (m : Nat) : v = scaled m x ∨ 2 ^ (x - 446) ≤ |v - scaled m x| := by
  have hapart := isApart_of_mem hmin hmax
  generalize ht : x / 16 = t at hapart
  have hplace : place t + 18 ≤ point := by
    have hle : (10 : ℚ) ^ (place t + 17) ≤ 2 ^ (x + 53) :=
      hapart.place_low.trans (zpow_le_zpow_right₀ (by norm_num) (by omega))
    have := (zpow_lt_zpow_iff_right₀ (by norm_num : (1 : ℚ) < 10)).mp (hle.trans_lt hlow)
    omega
  obtain ⟨n, hv⟩ := hgrid.multiple hplace
  have hn : n ≠ 0 := by
    rintro rfl
    rw [hv, Nat.cast_zero, zero_mul] at hpos
    exact absurd hpos (lt_irrefl _)
  have hlimit : n ≤ multiples := by
    have hten : (0 : ℚ) < 10 ^ place t := by positivity
    have hle : (n : ℚ) * 10 ^ place t ≤ multiples * 10 ^ place t := by
      calc (n : ℚ) * 10 ^ place t ≤ 2 ^ (x + 55) := hv ▸ hhigh
        _ ≤ 2 ^ (16 * t + 70) := zpow_le_zpow_right₀ (by norm_num) (by omega)
        _ ≤ multiples * 10 ^ place t := hapart.place_high
    exact_mod_cast le_of_mul_le_mul_right hle hten
  -- over the unit of its sixteen exponents, the difference is that between a multiple of the
  -- fraction and an integer
  have hm : scaled m x = (m * 2 ^ (x - 16 * t).toNat : Nat) * 2 ^ (16 * t) :=
    scaled_finer (by omega) m
  have hdiff : v - scaled m x =
      ((n : ℚ) * (ratioNum t / ratioDen t) - (m * 2 ^ (x - 16 * t).toNat : Nat)) * 2 ^
      (16 * t) := by
    rw [hm, hv, ten_zpow_place]
    ring
  rcases hapart.separated hn hlimit (m * 2 ^ (x - 16 * t).toNat) with heq | hfar
  · left
    rw [heq, sub_self, zero_mul] at hdiff
    linarith
  · right
    have hsplit : (2 : ℚ) ^ (16 * t - 430) * 2 ^ 430 = 2 ^ (16 * t) := by
      rw [← zpow_natCast, ← two_zpow_add]
      congr 1
      push_cast
      omega
    have hscale : (2 : ℚ) ^ (16 * t - 430) ≤ |v - scaled m x| := by
      have hunit : (0 : ℚ) < 2 ^ (16 * t) := by positivity
      rw [hdiff, abs_mul, abs_of_pos hunit, ← hsplit, mul_comm ((2 : ℚ) ^ (16 * t - 430)),
        ← mul_assoc]
      have hunit' : (0 : ℚ) ≤ 2 ^ (16 * t - 430) := by positivity
      exact le_mul_of_one_le_left hunit' hfar
    exact le_trans (zpow_le_zpow_right₀ (by norm_num) (by omega)) hscale

end Binary

end CypherBlocks
