import CypherBlocks.Proofs.NumberReading
import CypherBlocks.Proofs.Separation

/-!
# Doubles read back

The text of a double is read as a number of 512 bits, which is next to the decimal that the text
stands for.  That decimal is a bound around the double or far enough from it, so rounding to 512
bits does not move it across.  Hence every double reads back but for the first one of an exponent:
its text may as well lie next to the neighbour below, which is only half as far away as the text
takes it to be.
-/

namespace CypherBlocks

namespace Binary

/-! ## 1. Reading the text of a decimal -/

theorem text_eq_pointText (d : Decimal) :
    d.text = String.ofList (pointText d.wholeDigits d.fractionDigits) := by
  rw [← String.ofList_toList (s := d.text), d.toList_text]
  rfl

theorem ten_pow_le {k : Nat} (hplaces : k ≤ 400) : (10 : ℚ) ^ k ≤ 2 ^ (1600 : ℤ) := by
  calc (10 : ℚ) ^ k ≤ 10 ^ 400 := pow_le_pow_right₀ (by norm_num) hplaces
    _ ≤ (2 ^ 4) ^ 400 := pow_le_pow_left₀ (by norm_num) (by norm_num) _
    _ = 2 ^ (1600 : ℤ) := by rw [← pow_mul, ← zpow_natCast]; rfl

theorem five_pow_lt {k : Nat} (hplaces : k ≤ 400) : (5 : ℚ) ^ k < 2 ^ (exponentBound - 2) := by
  calc (5 : ℚ) ^ k ≤ 5 ^ 400 := pow_le_pow_right₀ (by norm_num) hplaces
    _ ≤ (2 ^ 3) ^ 400 := pow_le_pow_left₀ (by norm_num) (by norm_num) _
    _ = 2 ^ (1200 : ℤ) := by rw [← pow_mul, ← zpow_natCast]; rfl
    _ < 2 ^ (exponentBound - 2) := zpow_lt_zpow_right₀ (by norm_num) (by decide)

/-- The digits of a decimal that is not too large and has not too many places behind the point make
an integer that is not too long. -/
theorem bitLength_digits_le {n k : Nat} (hplaces : k ≤ 400)
    (hsize : (n : ℚ) * 10 ^ (-(k : ℤ)) < 2 ^ (1100 : ℤ)) : bitLength n ≤ 2700 := by
  refine bitLength_le_iff.mpr ?_
  have hten := ten_pow_le hplaces
  have hlt : (n : ℚ) < 2 ^ (2700 : Nat) := by
    calc (n : ℚ) = n * 10 ^ (-(k : ℤ)) * 10 ^ k := by
          rw [zpow_neg, zpow_natCast, mul_assoc, inv_mul_cancel₀ (by positivity), mul_one]
      _ < 2 ^ (1100 : ℤ) * 10 ^ k := mul_lt_mul_of_pos_right hsize (by positivity)
      _ ≤ 2 ^ (1100 : ℤ) * 2 ^ (1600 : ℤ) := mul_le_mul_of_nonneg_left hten (by positivity)
      _ = 2 ^ (2700 : Nat) := by
        rw [← two_zpow_add, ← zpow_natCast]
        congr 1
  exact_mod_cast hlt

/-- A size far from all bounds is read as a finite number. -/
theorem ReadSize.eq_finite {q : ℚ} {ten : Int} {b : Binary} (h : ReadSize false q ten b)
    (hleast : 2 ^ (-1600 : ℤ) ≤ q) (hgreatest : q < 2 ^ (1100 : ℤ))
    (hfive : (5 : ℚ) ^ ten.natAbs < 2 ^ (exponentBound - 2)) :
    ∃ (n : Nat) (f : Int) (v : ℚ), b = ⟨textPrecision, false, .finite n f⟩ ∧
      Near textPrecision v (scaled n f) ∧ |v - q| ≤ q * 2 ^ (-540 : ℤ) := by
  have hqpos : 0 < q := lt_of_lt_of_le (by positivity) hleast
  cases h with
  | unbounded tooLarge => exact absurd tooLarge (not_le.mpr hfive)
  | @next v r _ close near rounded =>
    have hmoved := near.abs_sub_le_of_close hqpos.le close
    have hsmall : q * 2 ^ (-540 : ℤ) ≤ q * (1 / 16) :=
      mul_le_mul_of_nonneg_left (two_zpow_neg_le (by norm_num)) hqpos.le
    have hsmall' : q * 2 ^ (-509 : ℤ) ≤ q * (1 / 16) :=
      mul_le_mul_of_nonneg_left (two_zpow_neg_le (by norm_num)) hqpos.le
    -- half of the size and twice the size are still in bounds
    have hv : 2 ^ (-exponentBound) ≤ v := by
      have hle : (2 : ℚ) ^ (-exponentBound) ≤ 2 ^ (-1601 : ℤ) :=
        zpow_le_zpow_right₀ (by norm_num) (by decide)
      have hhalf : (2 : ℚ) ^ (-1600 : ℤ) = 2 * 2 ^ (-1601 : ℤ) := by
        rw [← zpow_one_add₀ two_ne_zero]
        rfl
      rw [hhalf] at hleast
      generalize (2 : ℚ) ^ (-1601 : ℤ) = c at *
      have := abs_le.mp close
      linarith
    have hr : r < 2 ^ (exponentBound - 1) := by
      have hle : (2 : ℚ) ^ (1101 : ℤ) ≤ 2 ^ (exponentBound - 1) :=
        zpow_le_zpow_right₀ (by norm_num) (by decide)
      have hdouble : (2 : ℚ) ^ (1101 : ℤ) = 2 * 2 ^ (1100 : ℤ) := by
        rw [← zpow_one_add₀ two_ne_zero]
        rfl
      rw [hdouble] at hle
      obtain ⟨-, hupper⟩ := abs_le.mp hmoved
      refine lt_of_lt_of_le ?_ hle
      generalize (2 : ℚ) ^ (1100 : ℤ) = c at hgreatest ⊢
      generalize q * (2 : ℚ) ^ (-509 : ℤ) = δ at hupper hsmall'
      linarith only [hupper, hsmall', hgreatest, hqpos]
    obtain ⟨n, f, rfl, rfl⟩ := rounded.eq_finite hv hr
    exact ⟨n, f, v, rfl, near, close⟩

/-- Digits whose point and size are far from all bounds are read as a finite number. -/
theorem ofScientific?_near {n k : Nat} (hn : n ≠ 0) (hplaces : k ≤ 400)
    (hsize : (n : ℚ) * 10 ^ (-(k : ℤ)) < 2 ^ (1100 : ℤ)) :
    ∃ (n' : Nat) (f : Int) (v : ℚ),
      ofScientific? false n (-k) 0 = some ⟨textPrecision, false, .finite n' f⟩ ∧
      Near textPrecision v (scaled n' f) ∧
      |v - n * 10 ^ (-(k : ℤ))| ≤ n * 10 ^ (-(k : ℤ)) * 2 ^ (-540 : ℤ) := by
  have hlength := bitLength_digits_le hplaces hsize
  have hleast : -exponentBound ≤ bitLength n + (-k + 0) := by unfold exponentBound; omega
  have hgreatest : bitLength n + (-k + 0) < exponentBound := by unfold exponentBound; omega
  obtain ⟨b, hb, hreads⟩ := ofScientific?_reads false hn hleast hgreatest
  have hten : (2 : ℚ) ^ (-1600 : ℤ) ≤ 10 ^ (-(k : ℤ)) := by
    rw [zpow_neg, zpow_neg, zpow_natCast]
    exact inv_anti₀ (by positivity) (ten_pow_le hplaces)
  have hfar : (2 : ℚ) ^ (-1600 : ℤ) ≤ n * 10 ^ (-(k : ℤ)) := by
    refine hten.trans (le_mul_of_one_le_left (by positivity) ?_)
    exact_mod_cast Nat.one_le_iff_ne_zero.mpr hn
  have hfive : (5 : ℚ) ^ (-(k : ℤ)).natAbs < 2 ^ (exponentBound - 2) := by
    rw [Int.natAbs_neg, Int.natAbs_natCast]
    exact five_pow_lt hplaces
  rw [zpow_zero, mul_one] at hreads
  obtain ⟨n', f, v, rfl, hnear, hclose⟩ := hreads.eq_finite hfar hsize hfive
  exact ⟨n', f, v, hb, hnear, hclose⟩

/-- A decimal with not too many digits is read as a number of 512 bits next to it. -/
theorem parse?_text_near {d : Decimal} (h : d.IsDecimal) (hpos : 0 < d.value)
    (hplaces : d.fractionDigits.length ≤ 400) (hsize : d.value < 2 ^ (1100 : ℤ)) :
    ∃ (n : Nat) (f : Int) (v : ℚ), parse? d.text = some ⟨textPrecision, false, .finite n f⟩ ∧
      Near textPrecision v (scaled n f) ∧
      |v - d.value| ≤ d.value * 2 ^ (-540 : ℤ) := by
  -- the digits as one integer, and how many of them are behind the point
  have hvalue := h.value_text
  have hn : digitsNat (d.wholeDigits ++ d.fractionDigits) ≠ 0 := by
    intro hzero
    rw [hvalue, hzero, Nat.cast_zero, zero_mul] at hpos
    exact absurd hpos (lt_irrefl _)
  rw [text_eq_pointText, parse?_pointText d.wholeDigits_ne_nil h.isDigit, hvalue]
  rw [hvalue] at hsize
  exact ofScientific?_near hn hplaces hsize

/-! ## 2. Bounds are kept -/

/-- Reading moves a number by far less than the last bits of its size. -/
theorem abs_read_sub_lt {x : Int} {V v r : ℚ} (hpos : 0 < V) (hsize : V ≤ 2 ^ (x + 55))
    (hnear : Near textPrecision v r) (hclose : |v - V| ≤ V * 2 ^ (-540 : ℤ)) :
    |r - V| < 2 ^ (x - 446) := by
  calc |r - V| ≤ V * 2 ^ (-509 : ℤ) := hnear.abs_sub_le_of_close hpos.le hclose
    _ ≤ 2 ^ (x + 55) * 2 ^ (-509 : ℤ) := mul_le_mul_of_nonneg_right hsize (by positivity)
    _ = 2 ^ (x + 55 + -509) := (two_zpow_add _ _).symm
    _ < 2 ^ (x - 446) := zpow_lt_zpow_right₀ (by norm_num) (by omega)

/-- What is read lies on the same side of a binary number as the decimal. -/
theorem order_kept {x : Int} {V v r : ℚ} (hpos : 0 < V) (hsize : V ≤ 2 ^ (x + 55))
    (hnear : Near textPrecision v r) (hclose : |v - V| ≤ V * 2 ^ (-540 : ℤ)) {m : Nat}
    (hbits : m < 2 ^ 55) (hapart : V = scaled m x ∨ 2 ^ (x - 446) ≤ |V - scaled m x|) :
    (V ≤ scaled m x → r ≤ scaled m x) ∧ (scaled m x ≤ V → scaled m x ≤ r) ∧
      (V < scaled m x → r < scaled m x) ∧
      (scaled m x < V → scaled m x < r) := by
  rcases hapart with heq | hfar
  · have hexact : r = V :=
      hnear.eq_of_few_bits hpos hclose (hbits.trans (Nat.pow_lt_pow_right (by omega) (by decide)))
        heq
    rw [hexact, heq]
    exact ⟨fun _ => le_rfl, fun _ => le_rfl, fun h => h, fun h => h⟩
  · have hmoved := (abs_read_sub_lt hpos hsize hnear hclose).trans_le hfar
    rw [abs_lt] at hmoved
    refine ⟨fun hle => ?_, fun hle => ?_, fun hlt => ?_, fun hlt => ?_⟩
    · rw [abs_of_nonpos (by linarith)] at hmoved
      linarith
    · rw [abs_of_nonneg (by linarith)] at hmoved
      linarith
    · rw [abs_of_neg (by linarith)] at hmoved
      linarith
    · rw [abs_of_pos (by linarith)] at hmoved
      linarith

/-- The text of a double without its sign is read as a number between the bounds that the text
respects. -/
theorem parse?_shortest_within {m : Nat} {e : Int} (hform : Double.IsForm m e) (hm : m ≠ 0) :
    ∃ (n : Nat) (f : Int), parse? (shortest 53 m e).text = some ⟨textPrecision, false,
      .finite n f⟩ ∧ n ≠ 0 ∧
      Within (halves 53 m / 2 % 2 == 0) (scaled (halves 53 m - 1) (halvesExponent 53 m e))
        (scaled (halves 53 m + 1) (halvesExponent 53 m e))
        (scaled n f) := by
  obtain ⟨hlt, hmin, hmax, -⟩ := hform
  have hlt : m < 2 ^ 53 := hlt
  have hmin : -1074 ≤ e := hmin
  have hmax : e ≤ 971 := hmax
  have hlength := bitLength_le_iff.mpr hlt
  have hlengthPos := bitLength_pos hm
  obtain ⟨hlow, hhigh⟩ := halves_bounds hm (hlength.trans (Nat.le_succ 53))
  obtain ⟨point, hpoint, hgrid, hplaces, hwithin⟩ := fits_shortest hm hlt e
  have hx : -1127 ≤ halvesExponent 53 m e ∧ halvesExponent 53 m e ≤ 970 := by
    unfold halvesExponent
    omega
  have hsize : (2 : ℚ) ^ (halvesExponent 53 m e + 53) ≤ scaled m e := by
    rw [← scaled_halves 53 m e]
    exact (two_zpow_le_scaled (k := 53) rfl).mpr hlow
  generalize halvesExponent 53 m e = x at *
  generalize hV : (shortest 53 m e).value = V at *
  have hlower : 0 < scaled (halves 53 m - 1) x := scaled_pos (by omega) x
  have hVpos : 0 < V := hlower.trans_le hwithin.1
  have hVsize : V ≤ 2 ^ (x + 55) := by
    have hlt : scaled (halves 53 m + 1) x < 2 ^ (x + 55) :=
      (scaled_lt_two_zpow (k := 55) rfl).mpr (by omega)
    exact hwithin.2.1.trans hlt.le
  -- fewer than 376 places behind the point
  have hpointLow : -358 < point := by
    have hfirst : (2 : ℚ) ^ (-1074 : ℤ) < 10 ^ point :=
      (zpow_le_zpow_right₀ (by norm_num) (by omega)).trans_lt (hsize.trans_lt hpoint)
    have hten : (10 : ℚ) ^ (-358 : ℤ) ≤ 2 ^ (-1074 : ℤ) := by
      rw [show (-1074 : ℤ) = 3 * -358 by rfl, zpow_mul, zpow_neg, zpow_neg]
      exact inv_anti₀ (by positivity) (zpow_le_zpow_left₀ (by norm_num) (by norm_num) (by norm_num))
    exact (zpow_lt_zpow_iff_right₀ (by norm_num : (1 : ℚ) < 10)).mp (hten.trans_lt hfirst)
  obtain ⟨n, f, v, hparse, hnear, hclose⟩ :=
    parse?_text_near (isDecimal_shortest 53 m e) (by rwa [hV]) (by omega) (by
    rw [hV]
    exact hVsize.trans_lt (zpow_lt_zpow_right₀ (by norm_num) (by omega)))
  rw [hV] at hclose
  -- the text is a bound or not too near to one, and reading moves it by less than that
  have hapart := separated hx.1 hx.2 hgrid hVpos (hsize.trans_lt hpoint) hVsize
  obtain ⟨-, hle, -, hlt⟩ :=
    order_kept hVpos hVsize hnear hclose (by omega) (hapart (halves 53 m - 1))
  obtain ⟨hle', -, hlt', -⟩ :=
    order_kept hVpos hVsize hnear hclose (by omega) (hapart (halves 53 m + 1))
  refine ⟨n, f, hparse, ?_, hle hwithin.1, hle' hwithin.2.1, fun hex => ?_⟩
  · rintro rfl
    have hzero : scaled 0 f = 0 := by simp [scaled]
    have hbound := hle hwithin.1
    rw [hzero] at hbound
    linarith
  · exact ⟨hlt (hwithin.2.2 hex).1, hlt' (hwithin.2.2 hex).2⟩

end Binary

/-! ## 3. Doubles -/

namespace Double

open Binary

variable {m : Nat} {e : Int}

theorem reread?_finite (neg : Bool) (hform : IsForm m e) (hm : m ≠ 0) :
    ∃ (n : Nat) (f : Int),
      (finite neg m e).reread? = some (ofBinary ⟨textPrecision, neg, .finite n f⟩) ∧ n ≠ 0 ∧
      Within (halves 53 m / 2 % 2 == 0) (scaled (halves 53 m - 1) (halvesExponent 53 m e))
        (scaled (halves 53 m + 1) (halvesExponent 53 m e))
        (scaled n f) := by
  obtain ⟨n, f, hparse, hn, hwithin⟩ := parse?_shortest_within hform hm
  refine ⟨n, f, ?_, hn, hwithin⟩
  have hround : Binary.round mantissaBits neg m e = ⟨53, neg, .finite m e⟩ := by
    obtain ⟨hlt, hmin, hmax, -⟩ := hform
    have hlength : bitLength m ≤ 53 := bitLength_le_iff.mpr hlt
    rw [minExponent_eq] at hmin
    rw [maxExponent_eq] at hmax
    exact round_of_lt neg hm hlt (by unfold exponentBound; omega) (by unfold exponentBound; omega)
  have htext : Binary.text ⟨53, false, .finite m e⟩ = (Binary.shortest 53 m e).text :=
    String.empty_append
  unfold reread? toBinary?
  simp only [hround, htext, hparse, Option.map_some]
  cases neg <;> rfl

/-- The bounds of the text are no further away than half a step, and nearer if the mantissa is
short. -/
theorem halves_between (hm : m ≠ 0) (hlt : m < 2 ^ 53) (e : Int) :
    scaled (2 * m - 1) (e - 1) ≤ scaled (halves 53 m - 1) (halvesExponent 53 m e) ∧
      scaled (halves 53 m + 1) (halvesExponent 53 m e) ≤ scaled (2 * m + 1) (e - 1) ∧
      (bitLength m = 53 ∨
        scaled (2 * m - 1) (e - 1) < scaled (halves 53 m - 1) (halvesExponent 53 m e) ∧
        scaled (halves 53 m + 1) (halvesExponent 53 m e) < scaled (2 * m + 1) (e - 1)) := by
  have hlength := bitLength_le_iff.mpr hlt
  -- a mantissa that lacks `k` bits is shifted by `k` more, and the half of its unit is then `2 ^ k`
  -- of the halves
  generalize hk : 53 - bitLength m = k
  have hsplit : 54 - bitLength m = k + 1 := by omega
  have hexp : e - 1 = halvesExponent 53 m e + k := by
    unfold halvesExponent
    omega
  have hhalves : halves 53 m = 2 * m * 2 ^ k := by
    unfold halves
    rw [hsplit, Nat.pow_succ]
    ring
  have hpos := Nat.two_pow_pos k
  have hge : 2 ^ k ≤ m * 2 ^ k := Nat.le_mul_of_pos_left _ (Nat.pos_of_ne_zero hm)
  have hsub : (2 * m - 1) * 2 ^ k = 2 * m * 2 ^ k - 2 ^ k := by rw [Nat.sub_mul, Nat.one_mul]
  have hadd : (2 * m + 1) * 2 ^ k = 2 * m * 2 ^ k + 2 ^ k := by rw [Nat.add_mul, Nat.one_mul]
  have hassoc : 2 * m * 2 ^ k = 2 * (m * 2 ^ k) := Nat.mul_assoc _ _ _
  rw [scaled_finer hexp, scaled_finer hexp, scaled_le_scaled, scaled_le_scaled, scaled_lt_scaled,
    scaled_lt_scaled, hhalves, hsub, hadd, hassoc]
  refine ⟨by omega, by omega, ?_⟩
  rcases Nat.eq_zero_or_pos k with hzero | hmore
  · exact .inl (by omega)
  · have htwo : 2 ≤ 2 ^ k := Nat.le_self_pow hmore.ne' 2
    exact .inr ⟨by omega, by omega⟩

/-- Every double but zero and the first ones of an exponent reads back. -/
theorem reread?_eq (neg : Bool) (hform : IsForm m e) (hm : m ≠ 0) (hstep : ¬IsStep m e) :
    (finite neg m e).reread? = some (finite neg m e) := by
  obtain ⟨n, f, hreread, hn, hlow, hhigh, hstrict⟩ := reread?_finite neg hform hm
  obtain ⟨hlow', hhigh', hshort⟩ := halves_between hm hform.1 e
  rw [hreread, ofBinary_eq textPrecision neg hform hm hstep hn (hlow'.trans hlow)
    (hhigh.trans hhigh')]
  intro hodd
  rcases hshort with hfull | ⟨hlowLt, hhighLt⟩
  · -- a mantissa of full length that is odd does not include the bounds
    have hexcluded : (halves 53 m / 2 % 2 == 0) = false := by
      have hhalves : halves 53 m = m * 2 := by
        rw [halves, hfull]
        rfl
      rw [hhalves, Nat.mul_div_cancel _ (by omega), hodd]
      rfl
    obtain ⟨hlowLt, hhighLt⟩ := hstrict hexcluded
    exact ⟨(hlow'.trans_lt hlowLt).ne, (hhighLt.trans_le hhigh').ne⟩
  · exact ⟨(hlowLt.trans_le hlow).ne, (hhigh.trans_lt hhighLt).ne⟩

/-- The first double of an exponent is read back as itself or as its neighbour below. -/
theorem reread?_step (neg : Bool) (hmin : minExponent < e) (hmax : e ≤ maxExponent) :
    (finite neg (2 ^ 52) e).reread? = some (finite neg (2 ^ 52) e) ∨
      (finite neg (2 ^ 52) e).reread? = some (finite neg (2 ^ 53 - 1) (e - 1)) := by
  have hform : IsForm (2 ^ 52) e := ⟨by decide, hmin.le, hmax, .inl le_rfl⟩
  have hm : 2 ^ 52 ≠ 0 := by decide
  obtain ⟨n, f, hreread, hn, hlow, hhigh, -⟩ := reread?_finite neg hform hm
  have hhalves : halves 53 (2 ^ 52) = 2 ^ 53 := by decide
  have hexp : halvesExponent 53 (2 ^ 52) e = e - 1 := rfl
  rw [hhalves, hexp] at hlow hhigh
  rw [hreread]
  -- below the first double of an exponent the doubles are twice as dense, but the text may lie up
  -- to half a unit below it
  rcases le_or_gt (scaled (2 ^ 54 - 1) (e - 2)) (scaled n f) with hle | hgt
  · exact .inl (by rw [ofBinary_step textPrecision neg hmin hmax hn hle hhigh])
  · have hlow' : scaled (2 * (2 ^ 53 - 1) - 1) (e - 1 - 1) < scaled n f := by
      refine lt_of_lt_of_le ?_ hlow
      rw [scaled_finer (k := 1) (show e - 1 = e - 1 - 1 + (1 : Nat) by omega) (2 ^ 53 - 1),
        scaled_lt_scaled]
      omega
    have hhigh' : scaled n f < scaled (2 * (2 ^ 53 - 1) + 1) (e - 1 - 1) := by
      rwa [show 2 * (2 ^ 53 - 1) + 1 = 2 ^ 54 - 1 by rfl, show e - 1 - 1 = e - 2 by omega]
    have hbelow : IsForm (2 ^ 53 - 1) (e - 1) :=
      ⟨by decide, by omega, by omega, .inl (by decide)⟩
    refine .inr ?_
    rw [ofBinary_eq textPrecision neg hbelow (by decide) (fun h => absurd h.1 (by decide)) hn
      hlow'.le hhigh'.le fun _ => ⟨hlow'.ne, hhigh'.ne⟩]

theorem reread?_zero (neg : Bool) :
    (finite neg 0 minExponent).reread? = some (finite neg 0 minExponent) := by
  cases neg <;> decide +kernel

/-- What a double is read back as. -/
theorem IsProper.reread? {x : Double} (h : x.IsProper) : x.reread? = some x.kept := by
  cases x with
  | infinite => cases h
  | nan => cases h
  | finite neg m e =>
    have hform : IsForm m e := h
    by_cases hstep : IsStep m e
    · obtain ⟨rfl, hmin⟩ := hstep
      have hat : (finite neg (2 ^ (mantissaBits - 1)) e).AtStep := ⟨rfl, hmin⟩
      unfold kept
      by_cases hback : (finite neg (2 ^ (mantissaBits - 1)) e).ReadsBack
      · rw [if_neg fun hnot => hnot.2 hback]
        exact hback.2
      · rw [if_pos ⟨hat, hback⟩]
        exact (reread?_step neg hmin hform.2.2.1).resolve_left fun hsame => hback ⟨rfl, hsame⟩
    · have hkept : (finite neg m e).kept = finite neg m e := if_neg fun hnot => hstep hnot.1
      rw [hkept]
      by_cases hm : m = 0
      · subst hm
        obtain ⟨-, -, -, hfull | rfl⟩ := hform
        · exact absurd hfull (by decide)
        · exact reread?_zero neg
      · exact reread?_eq neg hform hm hstep

theorem IsProper.kept {x : Double} (h : x.IsProper) : x.kept.IsProper := by
  unfold Double.kept
  split
  · rename_i hstep
    cases x with
    | infinite => cases h
    | nan => cases h
    | finite neg m e =>
      obtain ⟨-, -, hmax, -⟩ := h
      have hmin : minExponent < e := hstep.1.2
      exact ⟨by decide, by omega, by omega, .inl (by decide)⟩
  · exact h

theorem isZero_kept (x : Double) : x.kept.isZero = x.isZero := by
  unfold Double.kept
  split
  · rename_i hstep
    cases x with
    | infinite => rfl
    | nan => rfl
    | finite neg m e =>
      obtain rfl : m = 2 ^ (mantissaBits - 1) := hstep.1.1
      rfl
  · rfl

/-- Only powers of two that do not read back are changed. -/
theorem kept_eq_iff {x : Double} (h : x.IsProper) : x.kept = x ↔ (x.AtStep → x.ReadsBack) := by
  cases x with
  | infinite => cases h
  | nan => cases h
  | finite neg m e =>
    unfold Double.kept
    constructor
    · intro hkept hstep
      by_contra hback
      rw [if_pos ⟨hstep, hback⟩] at hkept
      have hexp : e - 1 = e := (Double.finite.inj hkept).2.2
      omega
    · intro hback
      rw [if_neg fun hnot => hnot.2 (hback hnot.1)]

end Double

end CypherBlocks
