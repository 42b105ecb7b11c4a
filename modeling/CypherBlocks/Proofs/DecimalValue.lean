import CypherBlocks.Proofs.NumberText
import CypherBlocks.Proofs.Rounding
import Mathlib.Data.List.GetD
import Mathlib.Data.List.TakeWhile
import Mathlib.Data.Nat.Digits.Defs

/-!
# What a decimal stands for

The first `k` digits of a decimal make an integer, and the decimal lies between that integer and the
next one, both scaled by the power of ten of the place after them.  Cutting a decimal gives the
lower of the two and cutting it up the higher one.  The text of a decimal is read as an integer over
a power of ten that is just the decimal.
-/

namespace CypherBlocks

namespace Decimal

/-! ## 1. The first digits -/

/-- The integer that the first digits of a row make. -/
def lead (f : Nat → Nat) : Nat → Nat
  | 0 => 0
  | k + 1 => 10 * lead f k + f k

theorem lead_congr {f g : Nat → Nat} {k : Nat} (h : ∀ i < k, f i = g i) : lead f k = lead g k := by
  induction k with
  | zero => rfl
  | succ k ih =>
    have hk : lead f k = lead g k := ih fun i hi => h i (by omega)
    rw [lead, lead, hk, h k (by omega)]

theorem lead_add (f : Nat → Nat) (k j : Nat) :
    lead f (k + j) = lead f k * 10 ^ j + lead (fun i => f (k + i)) j := by
  induction j with
  | zero => simp [lead]
  | succ j ih =>
    rw [← Nat.add_assoc, lead, ih, lead, Nat.pow_succ]
    ring

theorem lead_lt {f : Nat → Nat} (hf : ∀ i, f i < 10) (k : Nat) : lead f k < 10 ^ k := by
  induction k with
  | zero => exact Nat.one_pos
  | succ k ih =>
    have hk := hf k
    rw [lead, Nat.pow_succ]
    omega

theorem lead_zeros {f : Nat → Nat} {k : Nat} (hf : ∀ i < k, f i = 0) : lead f k = 0 := by
  induction k with
  | zero => rfl
  | succ k ih => rw [lead, ih fun i hi => hf i (by omega), hf k (by omega)]

theorem lead_nines {f : Nat → Nat} {k : Nat} (hf : ∀ i < k, f i = 9) : lead f k + 1 = 10 ^ k := by
  induction k with
  | zero => rfl
  | succ k ih =>
    have hk := ih fun i hi => hf i (by omega)
    rw [lead, hf k (by omega), Nat.pow_succ, ← hk]
    ring

theorem lead_getD (ds : List Nat) :
    lead (fun i => ds.getD i 0) ds.length = ds.foldl (fun a b => 10 * a + b) 0 := by
  induction ds using List.reverseRecOn with
  | nil => rfl
  | append_singleton ds d ih =>
    have hinit : lead (fun i => (ds ++ [d]).getD i 0) ds.length = lead (fun i =>
        ds.getD i 0) ds.length :=
      lead_congr fun i hi => List.getD_append _ _ _ _ hi
    rw [List.length_append, List.length_singleton, lead, hinit, ih, List.foldl_append,
      List.foldl_cons, List.foldl_nil]
    simp

/-- The number that a decimal stands for. -/
def value (d : Decimal) : ℚ := lead d.digitAt d.digits.length * 10 ^ (d.point - d.digits.length)

theorem ten_zpow_add (a b : ℤ) : (10 : ℚ) ^ (a + b) = 10 ^ a * 10 ^ b := zpow_add₀ (by norm_num) a b

/-- A power of ten may be split off from an exponent. -/
theorem ten_zpow_split (p : ℤ) (k j : Nat) :
    (10 : ℚ) ^ (p - k) = 10 ^ j * 10 ^ (p - (k + j : Nat)) := by
  rw [← zpow_natCast, ← ten_zpow_add]
  congr 1
  push_cast
  ring

variable {d : Decimal}

/-- Zeros after the last digit do not count. -/
theorem value_eq_lead {k : Nat} (hk : d.digits.length ≤ k) :
    d.value = lead d.digitAt k * 10 ^ (d.point - k) := by
  obtain ⟨j, rfl⟩ := Nat.exists_eq_add_of_le hk
  have hzeros : lead (fun i => d.digitAt (d.digits.length + i)) j = 0 :=
    lead_zeros fun i _ => List.getD_eq_default _ _ (by omega)
  rw [value, lead_add, hzeros, Nat.add_zero, ten_zpow_split d.point _ j]
  push_cast
  ring

/-- The first digits and what comes after them. -/
theorem value_split (k : Nat) :
    ∃ j, d.value = (lead d.digitAt k * 10 ^ j + lead (fun i => d.digitAt (k + i)) j : Nat) * 10 ^
      (d.point - (k + j : Nat)) ∧
      d.digits.length ≤ k + j := by
  refine ⟨d.digits.length, ?_, by omega⟩
  rw [value_eq_lead (k := k + d.digits.length) (by omega), lead_add]

theorem lead_le_value (d : Decimal) (k : Nat) :
    lead d.digitAt k * 10 ^ (d.point - k) ≤ d.value := by
  obtain ⟨j, hvalue, -⟩ := value_split (d := d) k
  rw [hvalue, ten_zpow_split d.point k j, ← mul_assoc]
  have hmore : (0 : ℚ) ≤ lead (fun i => d.digitAt (k + i)) j := Nat.cast_nonneg _
  refine mul_le_mul_of_nonneg_right ?_ (by positivity)
  push_cast
  linarith

theorem IsDecimal.value_lt (h : d.IsDecimal) (k : Nat) :
    d.value < (lead d.digitAt k + 1) * 10 ^ (d.point - k) := by
  obtain ⟨j, hvalue, -⟩ := value_split (d := d) k
  have hlt : lead (fun i => d.digitAt (k + i)) j < 10 ^ j := lead_lt (fun i => h.digitAt _) j
  have hlt : (lead (fun i => d.digitAt (k + i)) j : ℚ) < 10 ^ j := by exact_mod_cast hlt
  rw [hvalue, ten_zpow_split d.point k j, ← mul_assoc]
  refine mul_lt_mul_of_pos_right ?_ (by positivity)
  push_cast
  linarith

/-! ## 2. Exact decimals -/

/-- No zero stands first or last. -/
structure IsNormal (d : Decimal) : Prop where
  isDecimal : d.IsDecimal
  first : (10 : ℚ) ^ (d.point - 1) ≤ d.value
  last : ∀ n ∈ d.digits.getLast?, n ≠ 0

theorem IsNormal.value_lt_ten (h : d.IsNormal) : d.value < 10 ^ d.point := by
  have hlt := h.isDecimal.value_lt 0
  simpa [lead] using hlt

/-- Digits that are left out stand for something. -/
theorem IsNormal.lead_lt_value (h : d.IsNormal) {k : Nat} (hk : k < d.digits.length) :
    lead d.digitAt k * 10 ^ (d.point - k) < d.value := by
  obtain ⟨j, hj⟩ := Nat.exists_eq_add_of_lt hk
  have hlast : d.digitAt (k + j) ≠ 0 := by
    have hget : d.digits.getLast? = some (d.digitAt (k + j)) := by
      unfold digitAt
      rw [List.getLast?_eq_getElem?, List.getD_eq_getElem?_getD, hj, Nat.add_sub_cancel,
        List.getElem?_eq_getElem (by omega)]
      rfl
    exact h.last _ hget
  have hpos : 0 < lead (fun i => d.digitAt (k + i)) (j + 1) := by
    rw [lead]
    omega
  have hpos : (0 : ℚ) < lead (fun i => d.digitAt (k + i)) (j + 1) := by exact_mod_cast hpos
  rw [value_eq_lead (k := k + (j + 1)) (by omega), lead_add, ten_zpow_split d.point k (j + 1),
    ← mul_assoc]
  refine mul_lt_mul_of_pos_right ?_ (by positivity)
  push_cast
  linarith

/-- Splits a run of one digit off the end of a row. -/
theorem exists_trailing (ds : List Nat) (v : Nat) :
    ∃ k, ds = (ds.reverse.dropWhile (· == v)).reverse ++ List.replicate k v := by
  refine ⟨(ds.reverse.takeWhile (· == v)).length, ?_⟩
  have hrun : ds.reverse.takeWhile (· == v) =
      List.replicate (ds.reverse.takeWhile (· == v)).length v := by
    refine List.eq_replicate_iff.mpr ⟨rfl, fun x hx => ?_⟩
    simpa using List.mem_takeWhile_imp hx
  have hsplit := List.takeWhile_append_dropWhile (p := (· == v)) (l := ds.reverse)
  calc ds = ds.reverse.reverse := (List.reverse_reverse ds).symm
    _ = (ds.reverse.takeWhile (· == v) ++ ds.reverse.dropWhile (· == v)).reverse := by rw [hsplit]
    _ = (ds.reverse.dropWhile (· == v)).reverse ++ (ds.reverse.takeWhile (· == v)).reverse :=
        List.reverse_append
    _ = _ := by
      congr 1
      rw [hrun, List.reverse_replicate, List.length_replicate]

theorem dropTrailingZeros_spec (ds : List Nat) :
    (dropTrailingZeros ds).length ≤ ds.length ∧ ∀ i,
      (dropTrailingZeros ds).getD i 0 = ds.getD i 0 := by
  obtain ⟨k, hk⟩ := exists_trailing ds 0
  change ds = dropTrailingZeros ds ++ _ at hk
  generalize dropTrailingZeros ds = es at hk ⊢
  subst hk
  refine ⟨by simp, fun i => ?_⟩
  rcases Nat.lt_or_ge i es.length with hlt | hge
  · rw [List.getD_append _ _ _ _ hlt]
  · rw [List.getD_append_right _ _ _ _ hge, List.getD_eq_default _ _ hge]
    simp [List.getD_eq_getElem?_getD, List.getElem?_replicate]
    split <;> rfl

theorem getLast?_dropTrailingZeros (ds : List Nat) :
    ∀ n ∈ (dropTrailingZeros ds).getLast?, n ≠ 0 := by
  intro n hn
  unfold dropTrailingZeros at hn
  rw [List.getLast?_reverse] at hn
  have hhead := List.head?_dropWhile_not (fun x => x == 0) ds.reverse
  rw [Option.mem_def.mp hn] at hhead
  simpa using hhead

theorem lead_digitsOf (n : Nat) :
    lead (fun i => (digitsOf n).getD i 0) (digitsOf n).length = n := by
  have hfold : (digitsOf n).foldl (fun a b => 10 * a + b) 0 =
      Nat.ofDigitChars 10 (Nat.toDigits 10 n) 0 := by
    unfold digitsOf
    rw [List.foldl_map]
    rfl
  rw [lead_getD, hfold, Nat.ofDigitChars_toDigits (by omega) (by omega)]

theorem ten_pow_le_of_digitsOf {n : Nat} (hn : n ≠ 0) : 10 ^ ((digitsOf n).length - 1) ≤ n := by
  by_contra hlt
  by_cases hone : (digitsOf n).length - 1 = 0
  · rw [hone] at hlt
    omega
  · have hlength := Nat.toDigits_length 10 n ((digitsOf n).length - 1) (by omega) (by omega)
    unfold digitsOf at hlength hone
    rw [List.length_map] at hlength hone
    omega

theorem value_ofScaled {n : Nat} (hn : n ≠ 0) (scale : Int) :
    (ofScaled n scale).value = n * 10 ^ scale := by
  obtain ⟨hlength, hget⟩ := dropTrailingZeros_spec (digitsOf n)
  have hform : ofScaled n scale = ⟨dropTrailingZeros (digitsOf n),
      (digitsOf n).length + scale⟩ := by
    unfold ofScaled
    rw [if_neg hn]
  have hlead : lead (ofScaled n scale).digitAt (digitsOf n).length = n := by
    rw [hform]
    exact (lead_congr fun i _ => hget i).trans (lead_digitsOf n)
  rw [value_eq_lead (k := (digitsOf n).length) (by rw [hform]; exact hlength), hlead, hform]
  congr 2
  change ((digitsOf n).length : Int) + scale - (digitsOf n).length = scale
  omega

theorem isNormal_ofScaled {n : Nat} (hn : n ≠ 0) (scale : Int) : (ofScaled n scale).IsNormal := by
  have hform : ofScaled n scale = ⟨dropTrailingZeros (digitsOf n),
      (digitsOf n).length + scale⟩ := by
    unfold ofScaled
    rw [if_neg hn]
  refine ⟨isDecimal_ofScaled n scale, ?_, ?_⟩
  · have hlength : 0 < (digitsOf n).length := by
      unfold digitsOf
      rw [List.length_map]
      exact List.length_pos_iff.mpr Nat.toDigits_ne_nil
    have hle : ((10 : ℚ) ^ ((digitsOf n).length - 1) : ℚ) ≤ n := by
      exact_mod_cast ten_pow_le_of_digitsOf hn
    rw [value_ofScaled hn, hform]
    change (10 : ℚ) ^ (((digitsOf n).length : Int) + scale - 1) ≤ _
    rw [show ((digitsOf n).length : Int) + scale - 1 = ((digitsOf n).length - 1 : Nat) +
      scale by omega, ten_zpow_add, zpow_natCast]
    exact mul_le_mul_of_nonneg_right hle (by positivity)
  · rw [hform]
    exact getLast?_dropTrailingZeros _

/-- The exact decimal of a binary number stands for that number. -/
theorem value_ofBinary {m : Nat} (hm : m ≠ 0) (e : Int) :
    (ofBinary m e).value = Binary.scaled m e := by
  unfold ofBinary Binary.scaled
  split
  · rename_i he
    have hmul : m * Nat.pow 2 e.toNat ≠ 0 := Nat.mul_ne_zero hm (Nat.two_pow_pos _).ne'
    rw [value_ofScaled hmul, zpow_zero, mul_one, Nat.pow_eq]
    push_cast
    rw [← zpow_natCast, Int.toNat_of_nonneg he]
  · rename_i he
    have hmul : m * Nat.pow 5 (-e).toNat ≠ 0 := Nat.mul_ne_zero hm (Nat.pow_pos (by omega)).ne'
    have hfive : ((5 : ℚ) ^ (-e).toNat) * 10 ^ e = 2 ^ e := by
      rw [← zpow_natCast, Int.toNat_of_nonneg (by omega), show (10 : ℚ) = 5 * 2 by norm_num,
        mul_zpow, ← mul_assoc, ← zpow_add₀ (by norm_num), neg_add_cancel, zpow_zero, one_mul]
    rw [value_ofScaled hmul, Nat.pow_eq]
    push_cast
    rw [mul_assoc, hfive]

theorem isNormal_ofBinary {m : Nat} (hm : m ≠ 0) (e : Int) : (ofBinary m e).IsNormal := by
  unfold ofBinary
  split
  · exact isNormal_ofScaled (Nat.mul_ne_zero hm (Nat.two_pow_pos _).ne') 0
  · exact isNormal_ofScaled (Nat.mul_ne_zero hm (Nat.pow_pos (by omega)).ne') e

/-! ## 3. Fewer digits -/

theorem getD_take (ds : List Nat) (n i : Nat) :
    (ds.take n).getD i 0 = if i < n then ds.getD i 0 else 0 := by
  rw [List.getD_eq_getElem?_getD, List.getElem?_take]
  split
  · rw [List.getD_eq_getElem?_getD]
  · rfl

/-- Cutting leaves the integer of the first digits. -/
theorem value_cut (d : Decimal) (n : Nat) :
    (d.cut n).value = lead d.digitAt n * 10 ^ (d.point - n) := by
  obtain ⟨hlength, hget⟩ := dropTrailingZeros_spec (d.digits.take n)
  have hlead : lead (d.cut n).digitAt n = lead d.digitAt n := by
    refine lead_congr fun i hi => ?_
    change (dropTrailingZeros (d.digits.take n)).getD i 0 = _
    rw [hget, getD_take, if_pos hi]
    rfl
  have hle : (d.cut n).digits.length ≤ n := hlength.trans (List.length_take_le _ _)
  -- if only zeros are left the point is moved, which does not matter for zero
  by_cases hnil : dropTrailingZeros (d.digits.take n) = []
  · have hzero : lead d.digitAt n = 0 := by
      rw [← hlead]
      refine lead_zeros fun i _ => ?_
      change (dropTrailingZeros (d.digits.take n)).getD i 0 = 0
      rw [hnil]
      rfl
    rw [value_eq_lead hle, hlead, hzero, Nat.cast_zero, zero_mul, zero_mul]
  · have hpoint : (d.cut n).point = d.point := by
      unfold cut
      simp only [hnil, if_false]
    rw [value_eq_lead hle, hlead, hpoint]

/-- Cutting up leaves the next integer: nines at the end become zeros with the carry. -/
theorem value_cutUp {n : Nat} (hn : n ≤ d.digits.length) :
    (d.cutUp n).value = (lead d.digitAt n + 1) * 10 ^ (d.point - n) := by
  obtain ⟨k, hk⟩ := exists_trailing (d.digits.take n) 9
  unfold cutUp
  simp only
  generalize ((d.digits.take n).reverse.dropWhile (· == 9)).reverse = kept at hk ⊢
  have hlength : kept.length + k = n := by
    have hcount := congrArg List.length hk
    rw [List.length_take, List.length_append, List.length_replicate, Nat.min_eq_left hn] at hcount
    omega
  have hdigit : ∀ i < n, d.digitAt i = (kept ++ List.replicate k 9).getD i 0 := by
    intro i hi
    rw [← hk, getD_take, if_pos hi]
    rfl
  -- the nines at the end and one more make a power of ten
  have hnines : lead (fun i => d.digitAt (kept.length + i)) k + 1 = 10 ^ k := by
    refine lead_nines fun i hi => ?_
    rw [hdigit _ (by omega), List.getD_append_right _ _ _ _ (by omega), Nat.add_sub_cancel_left,
      List.getD_replicate _ hi]
  have hsum : lead d.digitAt n + 1 = (lead d.digitAt kept.length + 1) * 10 ^ k := by
    rw [← hlength, lead_add, Nat.add_assoc, hnines, Nat.add_mul, Nat.one_mul]
  have hvalue : ((lead d.digitAt n : ℚ) + 1) * 10 ^ (d.point - n) =
      (lead d.digitAt kept.length + 1) * 10 ^ (d.point - kept.length) := by
    have hcast : (lead d.digitAt n : ℚ) + 1 = (lead d.digitAt kept.length + 1) * 10 ^ k := by
      exact_mod_cast hsum
    rw [hcast, ten_zpow_split d.point kept.length k, hlength, mul_assoc]
  rw [hvalue]
  -- either all digits were nines, or the last digit that is kept grows by one
  split
  · rename_i hnone
    rw [List.getLast?_eq_none_iff] at hnone
    subst hnone
    simp [value, lead, digitAt]
  · rename_i last hlast
    obtain ⟨init, rfl⟩ := List.getLast?_eq_some_iff.mp hlast
    rw [List.dropLast_concat, List.length_append, List.length_singleton]
    have hinit : lead (Decimal.digitAt ⟨init ++ [last + 1], d.point⟩) init.length =
        lead d.digitAt init.length := by
      refine lead_congr fun i hi => ?_
      change (init ++ [last + 1]).getD i 0 = _
      rw [List.length_append] at hlength
      rw [hdigit i (by omega), List.append_assoc, List.getD_append _ _ _ _ hi,
        List.getD_append _ _ _ _ hi]
    have hlastDigit : d.digitAt init.length = last := by
      rw [List.length_append, List.length_singleton] at hlength
      rw [hdigit _ (by omega), List.append_assoc, List.getD_append_right _ _ _ _ le_rfl]
      simp
    have hnew : Decimal.digitAt ⟨init ++ [last + 1], d.point⟩ init.length = last + 1 := by
      unfold digitAt
      rw [List.getD_append_right _ _ _ _ le_rfl]
      simp
    unfold value
    simp only [List.length_append, List.length_singleton, lead, hinit, hlastDigit, hnew]
    push_cast
    ring

/-! ## 4. Text -/

theorem length_fractionDigits (d : Decimal) :
    d.fractionDigits.length = (d.digits.length - d.point).toNat := by
  unfold fractionDigits
  rw [List.length_map, List.length_range]

/-- After cutting, no digit comes after the place of the cut. -/
theorem length_fractionDigits_cut (d : Decimal) (n : Nat) :
    (d.cut n).fractionDigits.length ≤ (n - d.point).toNat := by
  have hlength : (d.cut n).digits.length ≤ n :=
    (dropTrailingZeros_spec _).1.trans (List.length_take_le _ _)
  rw [length_fractionDigits]
  by_cases hnil : dropTrailingZeros (d.digits.take n) = []
  · have hcut : d.cut n = ⟨[], 0⟩ := by
      unfold cut
      simp only [hnil, if_true]
    rw [hcut]
    exact Nat.zero_le _
  · have hpoint : (d.cut n).point = d.point := by
      unfold cut
      simp only [hnil, if_false]
    rw [hpoint]
    omega

theorem length_fractionDigits_cutUp (d : Decimal) (n : Nat) :
    (d.cutUp n).fractionDigits.length ≤ (n - d.point).toNat := by
  rw [length_fractionDigits]
  unfold cutUp
  simp only
  generalize hkept : ((d.digits.take n).reverse.dropWhile (· == 9)).reverse = kept
  have hlength : kept.length ≤ n := by
    rw [← hkept, List.length_reverse]
    refine (List.dropWhile_sublist _).length_le.trans ?_
    rw [List.length_reverse]
    exact List.length_take_le _ _
  split
  · simp only [List.length_singleton]
    omega
  · rename_i last hlast
    obtain ⟨init, rfl⟩ := List.getLast?_eq_some_iff.mp hlast
    rw [List.length_append, List.length_singleton] at hlength
    simp only [List.dropLast_concat, List.length_append, List.length_singleton]
    omega

theorem toNat_digitChar {n : Nat} (h : n < 10) : (digitChar n).toNat - '0'.toNat = n := by
  interval_cases n <;> rfl

/-- Digits that are written one after the other are read as the integer that they make. -/
theorem digitsNat_range {f : Nat → Nat} (hf : ∀ i, f i < 10) (k : Nat) :
    Binary.digitsNat ((List.range k).map fun i => digitChar (f i)) = lead f k := by
  induction k with
  | zero => rfl
  | succ k ih =>
    unfold Binary.digitsNat at ih ⊢
    rw [List.range_succ, List.map_append, Nat.ofDigitChars_append, ih]
    change 10 * lead f k + ((digitChar (f k)).toNat - '0'.toNat) = lead f (k + 1)
    rw [toNat_digitChar (hf k), lead]

/-- The digits of the text make the decimal, over the power of ten that the point asks for. -/
theorem IsDecimal.value_text (h : d.IsDecimal) :
    d.value = Binary.digitsNat (d.wholeDigits ++ d.fractionDigits) * 10 ^
      (-(d.fractionDigits.length : Int)) := by
  rw [length_fractionDigits]
  generalize hplaces : (d.digits.length - d.point).toNat = places
  by_cases hpoint : d.point.toNat = 0
  · -- the digits come after the point, with zeros before them
    have hfraction : d.fractionDigits = (List.range places).map fun i : Nat =>
        digitChar (if d.point + i < 0 then 0 else d.digitAt (d.point + i).toNat) := by
      unfold fractionDigits
      rw [hplaces]
      refine List.map_congr_left fun i _ => ?_
      split <;> rfl
    have hdigits : Binary.digitsNat (d.wholeDigits ++ d.fractionDigits) =
        lead d.digitAt d.digits.length := by
      have hzero : d.wholeDigits = ['0'] := by
        unfold wholeDigits
        rw [if_pos hpoint]
      have hread : Binary.digitsNat (['0'] ++ d.fractionDigits) =
          Binary.digitsNat d.fractionDigits := rfl
      have hrow : ∀ i : Nat, (if d.point + i < 0 then 0
          else d.digitAt (d.point + i).toNat) < 10 := by
        intro i
        split
        · omega
        · exact h.digitAt _
      rw [hzero, hread, hfraction, digitsNat_range hrow,
        show places = (-d.point).toNat + d.digits.length by
        omega, lead_add, lead_zeros fun i hi => if_pos (by omega), Nat.zero_mul, Nat.zero_add]
      refine lead_congr fun i _ => ?_
      rw [if_neg (by omega)]
      congr 1
      omega
    rw [hdigits, value]
    congr 2
    omega
  · have hall : d.wholeDigits ++ d.fractionDigits =
        (List.range (d.point.toNat + places)).map fun i => digitChar (d.digitAt i) := by
      unfold wholeDigits fractionDigits
      rw [if_neg hpoint, hplaces, List.range_add, List.map_append, List.map_map]
      congr 1
      refine List.map_congr_left fun i _ => ?_
      rw [if_neg (by omega), Function.comp_apply]
      congr 2
      omega
    rw [hall, digitsNat_range h.digitAt, value_eq_lead (k := d.point.toNat + places) (by omega)]
    congr 2
    omega

end Decimal

end CypherBlocks
