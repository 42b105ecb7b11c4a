import CypherBlocks.Proofs.DecimalValue

/-!
# The fewest digits between two bounds

The digits of a number are walked along with those of two bounds around it.  As long as the digits
agree, so do the integers that they make; where they first differ, cutting the number there stays
above the lower bound and cutting it up stays below the upper one.  Since the bounds are not too
near the walk ends after a few digits.
-/

namespace CypherBlocks

namespace Decimal

/-! ## 1. Comparing digit by digit -/

theorem lead_one (f : Nat → Nat) : lead f 1 = f 0 := by
  rw [lead, lead, Nat.mul_zero, Nat.zero_add]

/-- Where the digits first differ, so do the integers that they make. -/
theorem lead_succ_le_lead {f g : Nat → Nat} {i : Nat} (hlead : lead f i = lead g i)
    (hlt : f i < g i) : (lead f (i + 1) : ℚ) + 1 ≤ lead g (i + 1) := by
  have hnext : lead f (i + 1) + 1 ≤ lead g (i + 1) := by
    rw [lead, lead, hlead]
    omega
  exact_mod_cast hnext

/-- Of two numbers with the same point and the same first digits the smaller one does not have the
larger digit next. -/
theorem digitAt_le_of_lt {x y : Decimal} (hy : y.IsDecimal) (hpoint : x.point = y.point)
    (hlt : x.value < y.value) {i : Nat} (hlead : lead x.digitAt i = lead y.digitAt i) :
    x.digitAt i ≤ y.digitAt i := by
  by_contra hgt
  have hnext := lead_succ_le_lead hlead.symm (Nat.not_le.mp hgt)
  have hy := hy.value_lt (i + 1)
  have hx := lead_le_value x (i + 1)
  rw [hpoint] at hx
  have hle :=
    mul_le_mul_of_nonneg_right hnext (show (0 : ℚ) ≤ 10 ^ (y.point - (i + 1 : Nat)) by positivity)
  linarith

theorem IsNormal.digitAt_zero_pos {d : Decimal} (h : d.IsNormal) : 0 < d.digitAt 0 := by
  have hlt := h.first.trans_lt (h.isDecimal.value_lt 1)
  have hpos : (0 : ℚ) < 10 ^ (d.point - 1) := by positivity
  have hone : (1 : ℚ) < lead d.digitAt 1 + 1 := by
    refine lt_of_mul_lt_mul_right ?_ hpos.le
    rw [one_mul]
    exact_mod_cast hlt
  rw [lead_one] at hone
  have hone : (0 : ℚ) < d.digitAt 0 := by linarith
  exact_mod_cast hone

theorem IsNormal.one_le_lead {d : Decimal} (h : d.IsNormal) : (1 : ℚ) ≤ lead d.digitAt 1 := by
  rw [lead_one]
  exact_mod_cast h.digitAt_zero_pos

/-- Of two numbers of which the larger one is at most twice the other one, either both have the same
point or the larger one begins with a one where the smaller one, with its point one place lower,
begins with a five or more. -/
theorem point_eq_or {x y : Decimal} (hx : x.IsNormal) (hy : y.IsNormal) (hlt : x.value < y.value)
    (htwice : y.value ≤ 2 * x.value) :
    x.point = y.point ∨ x.point + 1 = y.point ∧ 5 ≤ x.digitAt 0 ∧ y.digitAt 0 ≤ 1 := by
  have hten : (1 : ℚ) < 10 := by norm_num
  have hxlt := hx.value_lt_ten
  have hylt := hy.value_lt_ten
  have hle : x.point ≤ y.point := by
    have := (zpow_lt_zpow_iff_right₀ hten).mp (hx.first.trans_lt (hlt.trans hylt))
    omega
  have hge : y.point ≤ x.point + 1 := by
    have hmore : (10 : ℚ) ^ (y.point - 1) < 10 ^ (x.point + 1) := by
      have hpos : (0 : ℚ) < 10 ^ x.point := by positivity
      rw [ten_zpow_add, zpow_one]
      linarith [hy.first]
    have := (zpow_lt_zpow_iff_right₀ hten).mp hmore
    omega
  -- a factor of two cannot skip a place
  rcases (show x.point = y.point ∨ x.point + 1 = y.point by omega) with hsame | hnext
  · exact .inl hsame
  · refine .inr ⟨hnext, ?_, ?_⟩
    · have hbelow := hx.isDecimal.value_lt 1
      have hfirst := hy.first
      have hstep : (10 : ℚ) ^ (y.point - 1) = 10 * 10 ^ (x.point - 1) := by
        rw [← zpow_one_add₀ (by norm_num)]
        congr 1
        omega
      rw [lead_one, Nat.cast_one] at hbelow
      rw [hstep] at hfirst
      have hpos : (0 : ℚ) < 10 ^ (x.point - 1) := by positivity
      have hfive : (5 : ℚ) < x.digitAt 0 + 1 := by
        refine lt_of_mul_lt_mul_right ?_ hpos.le
        linarith
      have hfive : 5 < x.digitAt 0 + 1 := by exact_mod_cast hfive
      omega
    · have habove := lead_le_value y 1
      rw [lead_one, Nat.cast_one, show y.point - 1 = x.point by omega] at habove
      have hpos : (0 : ℚ) < 10 ^ x.point := by positivity
      have htwo : (y.digitAt 0 : ℚ) < 2 := by
        refine lt_of_mul_lt_mul_right ?_ hpos.le
        linarith
      have htwo : y.digitAt 0 < 2 := by exact_mod_cast htwo
      omega

end Decimal

namespace Binary

open Decimal

/-! ## 2. The walk -/

/-- Between two bounds, which count only if they are included. -/
def Within (inclusive : Bool) (lower upper v : ℚ) : Prop :=
  lower ≤ v ∧ v ≤ upper ∧ (inclusive = false → lower < v ∧ v < upper)

theorem within_of_lt {inclusive : Bool} {lower upper v : ℚ} (hlow : lower < v) (hhigh : v < upper) :
    Within inclusive lower upper v :=
  ⟨hlow.le, hhigh.le, fun _ => ⟨hlow, hhigh⟩⟩

/-- A number and two bounds around it that are not far. -/
structure Bounded (d lower upper : Decimal) : Prop where
  number : d.IsNormal
  below : lower.IsNormal
  above : upper.IsNormal
  lower_lt : lower.value < d.value
  lt_upper : d.value < upper.value
  lower_near : d.value ≤ 2 * lower.value
  upper_near : upper.value ≤ 2 * d.value

/-- Whether the lower bound is not too near, as with numbers of 54 bits. -/
def Apart (d lower : Decimal) : Prop := d.value ≤ 2 ^ 54 * (d.value - lower.value)

/-- Whether the walk may cut here. -/
def CutsDown (d lower : Decimal) (inclusive : Bool) (i : Nat) : Prop :=
  lower.digitAt i ≠ d.digitAt i ∨ inclusive = true ∧ i + 1 = lower.digits.length

/-- Whether the walk may cut up here. -/
def CutsUp (d upper : Decimal) (inclusive : Bool) (i : Nat) : Prop :=
  d.digitAt i ≠ upper.digitAt i ∧ (inclusive = true ∨ d.digitAt i + 1 < upper.digitAt i ∨
    i + 1 < upper.digits.length)

variable {d lower upper : Decimal} {inclusive : Bool} {i : Nat}

theorem Bounded.cut_within (h : Bounded d lower upper)
    (hbefore : ∀ j < i, lower.digitAt j = d.digitAt j) (hdown : CutsDown d lower inclusive i) :
    Within inclusive lower.value upper.value (d.cut (i + 1)).value := by
  have hbelow : (d.cut (i + 1)).value < upper.value := by
    rw [value_cut]
    exact (lead_le_value d (i + 1)).trans_lt h.lt_upper
  suffices hlow : lower.value ≤ (d.cut (i + 1)).value ∧
      (inclusive = false → lower.value < (d.cut (i + 1)).value) from ⟨hlow.1, hbelow.le, fun hex =>
      ⟨hlow.2 hex, hbelow⟩⟩
  rw [value_cut]
  have hpos : (0 : ℚ) ≤ 10 ^ (d.point - (i + 1 : Nat)) := by positivity
  rcases point_eq_or h.below h.number h.lower_lt h.lower_near with hpoint | ⟨hpoint, hfive, hone⟩
  · have hlead : lead lower.digitAt i = lead d.digitAt i := lead_congr hbefore
    have hdigit := digitAt_le_of_lt h.number.isDecimal hpoint h.lower_lt hlead
    by_cases heq : lower.digitAt i = d.digitAt i
    · -- the lower bound ends here and is included
      obtain ⟨hinclusive, hend⟩ := hdown.resolve_left (not_not.mpr heq)
      have hsame : lower.value = lead d.digitAt (i + 1) * 10 ^ (d.point - (i + 1 : Nat)) := by
        rw [value_eq_lead (k := i + 1) (by omega), hpoint, lead, lead, hlead, heq]
      exact ⟨hsame.le, fun hex => absurd hinclusive (by rw [hex]; decide)⟩
    · have hnext := lead_succ_le_lead hlead (Nat.lt_of_le_of_ne hdigit heq)
      have hlt := h.below.isDecimal.value_lt (i + 1)
      rw [hpoint] at hlt
      have hstrict := hlt.trans_le (mul_le_mul_of_nonneg_right hnext hpos)
      exact ⟨hstrict.le, fun _ => hstrict⟩
  · -- the lower bound is one place shorter, so that any first digit is above it
    have hi : i = 0 := by
      by_contra hne
      have := hbefore 0 (by omega)
      omega
    subst hi
    have hstrict : lower.value < lead d.digitAt (0 + 1) * 10 ^ (d.point - (0 + 1 : Nat)) := by
      refine lt_of_lt_of_le h.below.value_lt_ten ?_
      rw [show d.point - (0 + 1 : Nat) = lower.point by omega]
      exact le_mul_of_one_le_left (by positivity) h.number.one_le_lead
    exact ⟨hstrict.le, fun _ => hstrict⟩

/-- Once the digits of the upper bound differ without being far enough, they are never far
enough. -/
theorem eq_of_cutsUp (hbefore : ∀ j < i, ¬CutsUp d upper inclusive j)
    (hup : CutsUp d upper inclusive i) : ∀ j < i, d.digitAt j = upper.digitAt j := by
  intro j hj
  by_contra hne
  have hnot := hbefore j hj
  unfold CutsUp at hnot
  simp only [ne_eq, hne, not_false_eq_true, true_and, not_or, not_lt] at hnot
  obtain ⟨hex, -, hend⟩ := hnot
  have hzero : upper.digitAt i = 0 := List.getD_eq_default _ _ (by omega)
  obtain ⟨-, hin | hfar | hmore⟩ := hup
  · exact hex hin
  · omega
  · omega

theorem Bounded.cutUp_within (h : Bounded d lower upper) (hi : i < d.digits.length)
    (hbefore : ∀ j < i, ¬CutsUp d upper inclusive j) (hup : CutsUp d upper inclusive i) :
    Within inclusive lower.value upper.value (d.cutUp (i + 1)).value := by
  have hsame := eq_of_cutsUp hbefore hup
  obtain ⟨hne, hfar⟩ := hup
  have habove : lower.value < (d.cutUp (i + 1)).value := by
    rw [value_cutUp (by omega)]
    exact h.lower_lt.trans (h.number.isDecimal.value_lt (i + 1))
  suffices hhigh : (d.cutUp (i + 1)).value ≤ upper.value ∧
      (inclusive = false → (d.cutUp (i + 1)).value < upper.value) from ⟨habove.le, hhigh.1,
      fun hex => ⟨habove, hhigh.2 hex⟩⟩
  rw [value_cutUp (by omega)]
  have hpos : (0 : ℚ) < 10 ^ (d.point - (i + 1 : Nat)) := by positivity
  -- the digits agree with those of the bound so far, unless the bound is one place longer and
  -- starts with a one
  rcases point_eq_or h.number h.above h.lt_upper h.upper_near with hpoint | ⟨hpoint, hfive, hone⟩
  · have hlead : lead d.digitAt i = lead upper.digitAt i := lead_congr hsame
    have hdigit := digitAt_le_of_lt h.above.isDecimal hpoint h.lt_upper hlead
    have hnext := lead_succ_le_lead hlead (Nat.lt_of_le_of_ne hdigit hne)
    have hle := lead_le_value upper (i + 1)
    rw [← hpoint] at hle
    refine ⟨(mul_le_mul_of_nonneg_right hnext hpos.le).trans hle, fun hex => ?_⟩
    rcases hfar with hin | hdigits | hmore
    · rw [hex] at hin
      cases hin
    · have hnext : lead d.digitAt (i + 1) + 1 < lead upper.digitAt (i + 1) := by
        rw [lead, lead, hlead]
        omega
      have hcast : (lead d.digitAt (i + 1) : ℚ) + 1 < lead upper.digitAt (i + 1) := by
        exact_mod_cast hnext
      exact (mul_lt_mul_of_pos_right hcast hpos).trans_le hle
    · have hlt := h.above.lead_lt_value hmore
      rw [← hpoint] at hlt
      exact (mul_le_mul_of_nonneg_right hnext hpos.le).trans_lt hlt
  · have hi : i = 0 := by
      by_contra hne
      have := hsame 0 (by omega)
      omega
    subst hi
    have hnine : ((lead d.digitAt (0 + 1) : ℚ) + 1) * 10 ^ (d.point - (0 + 1 : Nat)) ≤
        10 ^ (upper.point - 1) := by
      have hdigit := h.number.isDecimal.digitAt 0
      have hten : (lead d.digitAt (0 + 1) : ℚ) + 1 ≤ 10 := by
        rw [Nat.zero_add, lead_one]
        exact_mod_cast hdigit
      rw [show upper.point - 1 = 1 + (d.point - (0 + 1 : Nat)) by omega, ten_zpow_add, zpow_one]
      exact mul_le_mul_of_nonneg_right hten hpos.le
    refine ⟨hnine.trans h.above.first, fun hex => hnine.trans_lt ?_⟩
    rcases hfar with hin | hdigits | hmore
    · rw [hex] at hin
      cases hin
    · omega
    · refine lt_of_le_of_lt ?_ (h.above.lead_lt_value hmore)
      exact le_mul_of_one_le_left (by positivity) h.above.one_le_lead

/-- The bounds differ from the number within as many digits as distinguish numbers of 54 bits. -/
theorem Bounded.lt_of_agrees (h : Bounded d lower upper) (hapart : Apart d lower)
    (hbefore : ∀ j < i, lower.digitAt j = d.digitAt j) : i < 18 := by
  by_contra hle
  have hlead : lead lower.digitAt 18 = lead d.digitAt 18 :=
    lead_congr fun j hj => hbefore j (by omega)
  rcases point_eq_or h.below h.number h.lower_lt h.lower_near with hpoint | ⟨-, hfive, hone⟩
  · have hlow := lead_le_value lower 18
    have hhigh := h.number.isDecimal.value_lt 18
    rw [hlead, hpoint] at hlow
    have hten : (10 : ℚ) ^ (d.point - 1) = 10 ^ 17 * 10 ^ (d.point - (18 : Nat)) :=
      ten_zpow_split d.point 1 17
    have hfirst := h.number.first
    unfold Apart at hapart
    rw [hten] at hfirst
    have hpos : (0 : ℚ) < 10 ^ (d.point - (18 : Nat)) := by positivity
    generalize (10 : ℚ) ^ (d.point - (18 : Nat)) = t at hlow hhigh hfirst hpos
    norm_num at hfirst hapart
    linarith
  · have := hbefore 0 (by omega)
    omega

/-- A number with no digit after the eighteenth place of numbers with this point. -/
def OnGrid (point : Int) (v : ℚ) : Prop := ∃ c : Nat, v = c * 10 ^ (point - (18 : Nat))

theorem onGrid_of_le {point : Int} {n : Nat} (hn : n ≤ 18) (c : Nat) :
    OnGrid point (c * 10 ^ (point - n)) := by
  obtain ⟨j, hj⟩ := Nat.exists_eq_add_of_le hn
  refine ⟨c * 10 ^ j, ?_⟩
  rw [hj, ten_zpow_split point n j]
  push_cast
  ring

theorem onGrid_of_length (h : d.digits.length ≤ 18) : OnGrid d.point d.value := onGrid_of_le h _

/-- What the walk may give: few digits between the bounds. -/
def Fits (lower upper : Decimal) (inclusive : Bool) (point : Int) (x : Decimal) : Prop :=
  Within inclusive lower.value upper.value x.value ∧ OnGrid point x.value ∧
    x.fractionDigits.length ≤ (18 - point).toNat

/-- Where the walk may end: at the last digit, or where it may cut for the first time. -/
inductive Walked (d lower upper : Decimal) (inclusive : Bool) : Decimal → Prop where
  | whole {i : Nat} (agrees : ∀ j < i, lower.digitAt j = d.digitAt j)
      (last : d.digits.length ≤ i + 1) : Walked d lower upper inclusive d
  | down {i : Nat} (agrees : ∀ j < i, lower.digitAt j = d.digitAt j)
      (cuts : CutsDown d lower inclusive i) : Walked d lower upper inclusive (d.cut (i + 1))
  | up {i : Nat} (inside : i < d.digits.length) (agrees : ∀ j < i, lower.digitAt j = d.digitAt j)
      (first : ∀ j < i, ¬CutsUp d upper inclusive j) (cuts : CutsUp d upper inclusive i) :
      Walked d lower upper inclusive (d.cutUp (i + 1))

theorem Walked.within {x : Decimal} (hwalk : Walked d lower upper inclusive x)
    (h : Bounded d lower upper) : Within inclusive lower.value upper.value x.value := by
  cases hwalk with
  | whole => exact within_of_lt h.lower_lt h.lt_upper
  | down agrees cuts => exact h.cut_within agrees cuts
  | up inside agrees first cuts => exact h.cutUp_within inside first cuts

theorem Walked.fits {x : Decimal} (hwalk : Walked d lower upper inclusive x)
    (h : Bounded d lower upper) (hapart : Apart d lower) :
    Fits lower upper inclusive d.point x := by
  refine ⟨hwalk.within h, ?_⟩
  cases hwalk with
  | whole agrees last =>
    have hlt := h.lt_of_agrees hapart agrees
    refine ⟨onGrid_of_length (by omega), ?_⟩
    rw [length_fractionDigits]
    omega
  | @down i agrees cuts =>
    have hlt := h.lt_of_agrees hapart agrees
    refine ⟨?_, (length_fractionDigits_cut d (i + 1)).trans (by omega)⟩
    rw [value_cut]
    exact onGrid_of_le hlt _
  | @up i inside agrees first cuts =>
    have hlt := h.lt_of_agrees hapart agrees
    refine ⟨?_, (length_fractionDigits_cutUp d (i + 1)).trans (by omega)⟩
    rw [value_cutUp inside]
    exact_mod_cast onGrid_of_le hlt (lead d.digitAt (i + 1) + 1)

/-- The walk from a place up to which it could not cut. -/
theorem walked_shortenFrom (d lower upper : Decimal) (inclusive : Bool) (ds : List Nat) {i : Nat}
    (hds : d.digits.drop i = ds) (hlower : ∀ j < i, lower.digitAt j = d.digitAt j)
    (hupper : ∀ j < i, ¬CutsUp d upper inclusive j) :
    Walked d lower upper inclusive (shortenFrom d lower upper inclusive i ds) := by
  -- by induction on the digits left: up to here the number agrees with its lower bound and could
  -- not be cut up
  induction ds generalizing i with
  | nil =>
    have hlength := List.drop_eq_nil_iff.mp hds
    exact .whole hlower (by omega)
  | cons m rest ih =>
    have hi : i < d.digits.length := by
      by_contra hle
      rw [List.drop_eq_nil_of_le (by omega)] at hds
      cases hds
    have hm : d.digitAt i = m := by
      unfold digitAt
      rw [List.drop_eq_getElem_cons hi] at hds
      rw [List.getD_eq_getElem _ _ hi, (List.cons.inj hds).1]
    have hrest : d.digits.drop (i + 1) = rest := by
      rw [← List.drop_drop, hds, List.drop_one, List.tail_cons]
    have hdown : (lower.digitAt i != m || (inclusive && i + 1 == lower.digits.length)) = true ↔
        CutsDown d lower inclusive i := by
      rw [← hm, CutsDown, Bool.or_eq_true, bne_iff_ne, Bool.and_eq_true, beq_iff_eq]
    have hup : (m != upper.digitAt i &&
          (inclusive || m + 1 < upper.digitAt i || i + 1 < upper.digits.length)) = true ↔
        CutsUp d upper inclusive i := by
      rw [← hm, CutsUp, Bool.and_eq_true, bne_iff_ne, Bool.or_eq_true, Bool.or_eq_true,
        decide_eq_true_iff, decide_eq_true_iff, or_assoc]
    -- it is cut where it may be cut either way, down or up, and otherwise at a later place
    unfold shortenFrom
    simp only
    split
    · rename_i hboth
      rw [Bool.and_eq_true, hdown, hup] at hboth
      unfold Decimal.round
      split
      · split
        · exact .up hi hlower hupper hboth.2
        · exact .down hlower hboth.1
      · exact .whole hlower (by omega)
    · split
      · rename_i hcut
        exact .down hlower (hdown.mp hcut)
      · split
        · rename_i hcut
          exact .up hi hlower hupper (hup.mp hcut)
        · rename_i hnotDown hnotUp
          rw [hdown] at hnotDown
          rw [hup] at hnotUp
          refine ih hrest (fun j hj => ?_) (fun j hj => ?_)
          · rcases Nat.lt_succ_iff_lt_or_eq.mp hj with hlt | rfl
            · exact hlower j hlt
            · exact not_not.mp fun hne => hnotDown (.inl hne)
          · rcases Nat.lt_succ_iff_lt_or_eq.mp hj with hlt | rfl
            · exact hupper j hlt
            · exact hnotUp

/-! ## 3. The shortest text of a number -/

/-- The mantissa with one bit more than the precision, so that half a unit in the last place is
one. -/
def halves (prec m : Nat) : Nat := m * 2 ^ (prec + 1 - bitLength m)

/-- The exponent that goes with it. -/
def halvesExponent (prec m : Nat) (e : Int) : Int := e - (prec + 1 - bitLength m : Nat)

theorem scaled_halves (prec m : Nat) (e : Int) :
    scaled (halves prec m) (halvesExponent prec m e) = scaled m e := by
  rw [halves, scaled_mul_pow, halvesExponent, Int.sub_add_cancel]

section Halves

variable {prec m : Nat}

theorem halves_bounds (hm : m ≠ 0) (hbits : bitLength m ≤ prec + 1) :
    2 ^ prec ≤ halves prec m ∧ halves prec m < 2 ^ (prec + 1) := by
  have hpos := bitLength_pos hm
  constructor
  · calc 2 ^ prec = 2 ^ (bitLength m - 1) * 2 ^ (prec + 1 - bitLength m) := by
          rw [← Nat.pow_add]
          congr 1
          omega
      _ ≤ halves prec m := Nat.mul_le_mul_right _ (two_pow_le_of_bitLength hm)
  · calc halves prec m < 2 ^ bitLength m * 2 ^ (prec + 1 - bitLength m) :=
          Nat.mul_lt_mul_of_pos_right (lt_two_pow_bitLength m) (Nat.two_pow_pos _)
      _ = 2 ^ (prec + 1) := by
          rw [← Nat.pow_add]
          congr 1
          omega

theorem shortest_eq (hbits : bitLength m ≤ prec + 1) (e : Int) :
    shortest prec m e = shortenFrom (ofBinary m e)
      (ofBinary (halves prec m - 1) (halvesExponent prec m e))
      (ofBinary (halves prec m + 1) (halvesExponent prec m e))
      (halves prec m / 2 % 2 == 0) 0 (ofBinary m e).digits := by
  have hmant : (if (bitLength m : Int) - ((prec : Int) + 1) < 0 then
      m <<< (-((bitLength m : Int) - ((prec : Int) + 1))).toNat
      else m >>> ((bitLength m : Int) - ((prec : Int) + 1)).toNat) = halves prec m := by
    unfold halves
    split
    · rw [Nat.shiftLeft_eq]
      congr 2
      omega
    · have hsame : bitLength m = prec + 1 := by omega
      rw [hsame, show (((prec + 1 : Nat) : Int) - ((prec : Int) + 1)).toNat = 0 by omega,
        Nat.sub_self]
      simp
  have hexp : e + ((bitLength m : Int) - ((prec : Int) + 1)) = halvesExponent prec m e := by
    unfold halvesExponent
    omega
  unfold shortest
  simp only [hmant, hexp]

/-- The bounds of the text are half a unit in the last place away. -/
theorem bounded_halves (hprec : 0 < prec) (hm : m ≠ 0) (hbits : bitLength m ≤ prec + 1) (e : Int) :
    Bounded (ofBinary m e) (ofBinary (halves prec m - 1) (halvesExponent prec m e))
      (ofBinary (halves prec m + 1) (halvesExponent prec m e)) ∧
    (ofBinary (halves prec m - 1) (halvesExponent prec m e)).value =
      scaled m e - 2 ^ halvesExponent prec m e ∧
    (ofBinary (halves prec m + 1) (halvesExponent prec m e)).value =
      scaled m e + 2 ^ halvesExponent prec m e := by
  obtain ⟨hlow, -⟩ := halves_bounds hm hbits
  have hsame := scaled_halves prec m e
  have htwo : 2 ≤ 2 ^ prec := Nat.le_self_pow hprec.ne' 2
  generalize halvesExponent prec m e = x at *
  generalize halves prec m = h at *
  have hpos : (0 : ℚ) < 2 ^ x := by positivity
  have hd : (ofBinary m e).value = scaled h x := by rw [value_ofBinary hm, ← hsame]
  have hlower : (ofBinary (h - 1) x).value = scaled h x - 2 ^ x := by
    rw [value_ofBinary (by omega)]
    unfold scaled
    rw [Nat.cast_sub (by omega)]
    push_cast
    ring
  have hupper : (ofBinary (h + 1) x).value = scaled h x + 2 ^ x := by
    rw [value_ofBinary (by omega)]
    unfold scaled
    push_cast
    ring
  have hmin : 2 * 2 ^ x ≤ scaled h x :=
    mul_le_mul_of_nonneg_right (by exact_mod_cast htwo.trans hlow) hpos.le
  rw [← hsame]
  refine ⟨⟨isNormal_ofBinary hm e, isNormal_ofBinary (by omega) x, isNormal_ofBinary (by omega) x,
    ?_, ?_, ?_, ?_⟩, hlower, hupper⟩ <;> rw [hd] <;> (first | rw [hlower] | rw [hupper]) <;>
      linarith

theorem walked_shortest (hbits : bitLength m ≤ prec + 1) (e : Int) :
    Walked (ofBinary m e) (ofBinary (halves prec m - 1) (halvesExponent prec m e))
      (ofBinary (halves prec m + 1) (halvesExponent prec m e)) (halves prec m / 2 % 2 == 0)
      (shortest prec m e) := by
  rw [shortest_eq hbits]
  exact walked_shortenFrom _ _ _ _ _ List.drop_zero (by simp) (by simp)

/-- The text of a number is at most half a unit in the last place away from it. -/
theorem abs_shortest_sub_le (hprec : 0 < prec) (hm : m ≠ 0) (hbits : bitLength m ≤ prec + 1)
    (e : Int) :
    |(shortest prec m e).value - scaled m e| ≤ 2 ^ (e + bitLength m - prec - 1) := by
  obtain ⟨hbounded, hlower, hupper⟩ := bounded_halves hprec hm hbits e
  obtain ⟨hlow, hhigh, -⟩ := (walked_shortest hbits e).within hbounded
  have hexp : halvesExponent prec m e = e + bitLength m - prec - 1 := by
    unfold halvesExponent
    omega
  rw [hlower] at hlow
  rw [hupper] at hhigh
  rw [← hexp, abs_le]
  constructor <;> linarith

end Halves

/-- The text of a number with 53 bits: few digits that lie no further than half a unit in the last
place away. -/
theorem fits_shortest {m : Nat} (hm : m ≠ 0) (hlt : m < 2 ^ 53) (e : Int) :
    ∃ point : Int, scaled m e < 10 ^ point ∧ OnGrid point (shortest 53 m e).value ∧
      (shortest 53 m e).fractionDigits.length ≤ (18 - point).toNat ∧
      Within (halves 53 m / 2 % 2 == 0) (scaled (halves 53 m - 1) (halvesExponent 53 m e))
        (scaled (halves 53 m + 1) (halvesExponent 53 m e)) (shortest 53 m e).value := by
  have hbits : bitLength m ≤ 53 + 1 := (bitLength_le_iff.mpr hlt).trans (by omega)
  obtain ⟨hlow, hhigh⟩ := halves_bounds hm hbits
  obtain ⟨hbounded, hlower, -⟩ := bounded_halves (by omega) hm hbits e
  -- the unit is not less than a part in 2 ^ 54 of the number
  have hapart : Apart (ofBinary m e) (ofBinary (halves 53 m - 1) (halvesExponent 53 m e)) := by
    have hmax : scaled (halves 53 m) (halvesExponent 53 m e) ≤ 2 ^ 54 * 2 ^ halvesExponent 53 m e :=
      mul_le_mul_of_nonneg_right (by exact_mod_cast hhigh.le) (by positivity)
    unfold Apart
    rw [hlower, value_ofBinary hm, ← scaled_halves 53 m e, sub_sub_cancel]
    exact hmax
  obtain ⟨hwithin, hgrid, hplaces⟩ := (walked_shortest hbits e).fits hbounded hapart
  rw [value_ofBinary (by omega), value_ofBinary (by omega)] at hwithin
  refine ⟨(ofBinary m e).point, ?_, hgrid, hplaces, hwithin⟩
  rw [← value_ofBinary hm]
  exact (isNormal_ofBinary hm e).value_lt_ten

end Binary

end CypherBlocks
