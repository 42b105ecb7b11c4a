import CypherBlocks.Number.Double
import Mathlib.Tactic.IntervalCases

/-!
# Digits of decimals

Every way to cut or round a decimal keeps its digits below ten, so the text of a number is made of
digits with at most one point between them and a sign before them.
-/

namespace CypherBlocks

namespace Decimal

/-- A decimal whose digits are digits. -/
def IsDecimal (d : Decimal) : Prop := ∀ n ∈ d.digits, n < 10

theorem digitChar_isDigit {n : Nat} (h : n < 10) : (digitChar n).isDigit = true := by
  interval_cases n <;> rfl

theorem toNat_sub_lt_ten {c : Char} (h : c.isDigit = true) : c.toNat - '0'.toNat < 10 := by
  simp only [Char.isDigit, ge_iff_le, Bool.and_eq_true, decide_eq_true_eq, UInt32.le_iff_toNat_le]
    at h
  change 48 ≤ c.toNat ∧ c.toNat ≤ 57 at h
  change c.toNat - 48 < 10
  omega

theorem mem_dropTrailingZeros {ds : List Nat} {n : Nat} (h : n ∈ dropTrailingZeros ds) :
    n ∈ ds := by
  unfold dropTrailingZeros at h
  rw [List.mem_reverse] at h
  exact List.mem_reverse.mp ((List.dropWhile_sublist _).mem h)

theorem isDecimal_ofScaled (n : Nat) (scale : Int) : (ofScaled n scale).IsDecimal := by
  unfold ofScaled IsDecimal
  split
  · simp
  · intro m hm
    have hm' := mem_dropTrailingZeros hm
    unfold digitsOf at hm'
    obtain ⟨c, hc, rfl⟩ := List.mem_map.mp hm'
    exact toNat_sub_lt_ten (Nat.isDigit_of_mem_toDigits (by omega) (by omega) hc)

theorem isDecimal_ofBinary (m : Nat) (e : Int) : (ofBinary m e).IsDecimal := by
  unfold ofBinary
  split <;> exact isDecimal_ofScaled _ _

variable {d : Decimal}

theorem IsDecimal.digitAt (h : d.IsDecimal) (i : Nat) : d.digitAt i < 10 := by
  unfold Decimal.digitAt
  rw [List.getD_eq_getElem?_getD]
  cases hi : d.digits[i]? with
  | none => simp
  | some n => exact h n (List.mem_of_getElem? hi)

theorem IsDecimal.cut (h : d.IsDecimal) (n : Nat) : (d.cut n).IsDecimal := by
  intro m hm
  exact h m (List.mem_of_mem_take (mem_dropTrailingZeros hm))

/-- Nines before the last place are dropped, so one more than the last digit that is kept is a
digit. -/
theorem IsDecimal.cutUp (h : d.IsDecimal) (n : Nat) : (d.cutUp n).IsDecimal := by
  unfold Decimal.cutUp
  simp only
  generalize hkept : ((d.digits.take n).reverse.dropWhile (· == 9)).reverse = kept
  have hmem : ∀ m ∈ kept, m < 10 := by
    intro m hm
    rw [← hkept, List.mem_reverse] at hm
    exact h m (List.mem_of_mem_take (List.mem_reverse.mp ((List.dropWhile_sublist _).mem hm)))
  split
  · simp [IsDecimal]
  · rename_i last hlast
    have hne : last ≠ 9 := by
      rw [← hkept, List.getLast?_reverse] at hlast
      have := List.head?_dropWhile_not (fun x => x == 9) (d.digits.take n).reverse
      rw [hlast] at this
      simpa using this
    have hlt := hmem last (List.mem_of_getLast? hlast)
    intro m hm
    change m ∈ kept.dropLast ++ [last + 1] at hm
    rcases List.mem_append.mp hm with hm | hm
    · exact hmem m ((List.dropLast_sublist kept).mem hm)
    · rw [List.mem_singleton] at hm
      omega

theorem IsDecimal.round (h : d.IsDecimal) (n : Nat) : (d.round n).IsDecimal := by
  unfold Decimal.round
  split
  · split
    · exact h.cutUp n
    · exact h.cut n
  · exact h

/-- The digits before the point; a lone zero if there are none. -/
def wholeDigits (d : Decimal) : List Char :=
  if d.point.toNat = 0 then ['0'] else (List.range d.point.toNat).map fun i =>
    digitChar (d.digitAt i)

/-- The digits after the point. -/
def fractionDigits (d : Decimal) : List Char :=
  (List.range (d.digits.length - d.point).toNat).map fun i : Nat =>
    if d.point + i < 0 then '0' else digitChar (d.digitAt (d.point + i).toNat)

theorem wholeDigits_ne_nil (d : Decimal) : d.wholeDigits ≠ [] := by
  unfold wholeDigits
  split
  · simp
  · rename_i hpoint
    rwa [ne_eq, List.map_eq_nil_iff, List.range_eq_nil]

theorem IsDecimal.isDigit (h : d.IsDecimal) :
    ∀ c ∈ d.wholeDigits ++ d.fractionDigits, c.isDigit = true := by
  have hdigit : ∀ i, (digitChar (d.digitAt i)).isDigit = true :=
    fun i => digitChar_isDigit (h.digitAt i)
  intro c hc
  unfold wholeDigits fractionDigits at hc
  rcases List.mem_append.mp hc with hwhole | hfraction
  · split at hwhole
    · rw [List.mem_singleton.mp hwhole]
      rfl
    · obtain ⟨i, -, rfl⟩ := List.mem_map.mp hwhole
      exact hdigit i
  · obtain ⟨i, -, rfl⟩ := List.mem_map.mp hfraction
    split
    · rfl
    · exact hdigit _

/-- The text of a decimal: digits, and perhaps a point and more digits. -/
theorem toList_text (d : Decimal) :
    d.text.toList = d.wholeDigits ++ (if d.fractionDigits = [] then []
      else '.' :: d.fractionDigits) := by
  have hplaces : d.fractionDigits = [] ↔ (d.digits.length - d.point).toNat = 0 := by
    unfold fractionDigits
    rw [List.map_eq_nil_iff, List.range_eq_nil]
  change (if (d.digits.length - d.point).toNat = 0 then String.ofList d.wholeDigits
    else String.ofList (d.wholeDigits ++ '.' :: d.fractionDigits)).toList = _
  by_cases hp : (d.digits.length - d.point).toNat = 0
  · rw [if_pos hp, if_pos (hplaces.mpr hp), List.append_nil, String.toList_ofList]
  · rw [if_neg hp, if_neg (fun hf => hp (hplaces.mp hf)), String.toList_ofList]

end Decimal

namespace Binary

theorem isDecimal_shortenFrom {d lower upper : Decimal} {inclusive : Bool} (h : d.IsDecimal)
    (i : Nat) (ds : List Nat) : (shortenFrom d lower upper inclusive i ds).IsDecimal := by
  induction ds generalizing i with
  | nil => exact h
  | cons m rest ih =>
    unfold shortenFrom
    simp only
    split
    · exact h.round _
    · split
      · exact h.cut _
      · split
        · exact h.cutUp _
        · exact ih (i + 1)

theorem isDecimal_shortest (prec m : Nat) (e : Int) : (shortest prec m e).IsDecimal :=
  isDecimal_shortenFrom (Decimal.isDecimal_ofBinary m e) 0 _

end Binary

namespace Double

theorem isDecimal_choose {d x : Decimal} {m n : Nat} {e : Int} (h : d.IsDecimal)
    (hx : choose d m e n = some x) : x.IsDecimal := by
  unfold choose at hx
  simp only at hx
  split at hx
  · cases hx
    exact h.round n
  · cases hx
    exact h.cut n
  · cases hx
    exact h.cutUp n
  · cases hx

theorem isDecimal_shortest (m : Nat) (e : Int) : (shortest m e).IsDecimal := by
  have h := Decimal.isDecimal_ofBinary m e
  unfold shortest
  simp only
  cases hx : (List.range (Decimal.ofBinary m e).digits.length).findSome? fun i =>
    choose (Decimal.ofBinary m e) m e (i + 1) with
  | none => exact h
  | some x =>
    obtain ⟨i, -, hi⟩ := List.exists_of_findSome?_eq_some hx
    exact isDecimal_choose h hi

end Double

end CypherBlocks
