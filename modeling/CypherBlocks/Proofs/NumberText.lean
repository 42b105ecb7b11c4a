import CypherBlocks.Proofs.Digits
import CypherBlocks.Proofs.Texts

/-!
# Reading numbers back

What is read as a number is a sign, digits with at most one point between them and an exponent.  It
is read as the integer that all digits make, times the powers of ten and of two that the point and
the exponent ask for.  An integer of no more than 512 bits is read exactly.  A double reads back if
the text that is written for it is read as the same double.
-/

namespace CypherBlocks

namespace Binary

/-! ## 1. Digits -/

/-- The integer that a row of digits stands for. -/
def digitsNat (cs : List Char) : Nat := Nat.ofDigitChars 10 cs 0

theorem foldlM_digits {cs : List Char} (hcs : ∀ c ∈ cs, c.isDigit = true) (n : Nat) :
    cs.foldlM (fun n c => if c.isDigit then some (10 * n + (c.toNat - '0'.toNat)) else none) n =
      some (Nat.ofDigitChars 10 cs n) := by
  induction cs generalizing n with
  | nil => rfl
  | cons c cs ih =>
    obtain ⟨hc, hcs⟩ := List.forall_mem_cons.mp hcs
    rw [List.foldlM_cons, if_pos hc]
    exact ih hcs _

theorem digitsValue?_digits {cs : List Char} (hcs : ∀ c ∈ cs, c.isDigit = true) :
    digitsValue? cs = some (digitsNat cs) :=
  foldlM_digits hcs 0

theorem digitsValue?_eq_some_iff {cs : List Char} {n : Nat} :
    digitsValue? cs = some n ↔ (∀ c ∈ cs, c.isDigit = true) ∧ digitsNat cs = n := by
  constructor
  · intro h
    suffices hall : ∀ c ∈ cs, c.isDigit = true by
      rw [digitsValue?_digits hall] at h
      exact ⟨hall, Option.some.inj h⟩
    unfold digitsValue? at h
    generalize 0 = m at h
    induction cs generalizing m with
    | nil => simp
    | cons c cs ih =>
      rw [List.foldlM_cons] at h
      split at h
      · rename_i hc
        exact List.forall_mem_cons.mpr ⟨hc, ih _ h⟩
      · cases h
  · rintro ⟨hall, rfl⟩
    exact digitsValue?_digits hall

/-! ## 2. How numbers are spelled -/

/-- A number that is spelled: `± digits · 10^ten · 2^two`. -/
structure Spelling where
  neg : Bool
  digits : Nat
  ten : Int
  two : Int

inductive SpellsSign : Bool → List Char → Prop where
  | none : SpellsSign false []
  | plus : SpellsSign false ['+']
  | minus : SpellsSign true ['-']

/-- An exponent of ten or of two. -/
inductive SpellsExponent : Int → Int → List Char → Prop where
  | none : SpellsExponent 0 0 []
  | ten {c : Char} {neg : Bool} {sign ds : List Char} (mark : c = 'e' ∨ c = 'E')
      (signs : SpellsSign neg sign) (some : ds ≠ []) (digits : ∀ d ∈ ds, d.isDigit = true)
      (fits : isExponent (signed neg (digitsNat ds)) = true) :
      SpellsExponent (signed neg (digitsNat ds)) 0 (c :: (sign ++ ds))
  | two {c : Char} {neg : Bool} {sign ds : List Char} (mark : c = 'p' ∨ c = 'P')
      (signs : SpellsSign neg sign) (some : ds ≠ []) (digits : ∀ d ∈ ds, d.isDigit = true)
      (fits : isExponent (signed neg (digitsNat ds)) = true) :
      SpellsExponent 0 (signed neg (digitsNat ds)) (c :: (sign ++ ds))

/-- A sign, digits with a point somewhere, and an exponent. -/
inductive Spells : Spelling → List Char → Prop where
  | intro {neg : Bool} {sign whole point fraction exponent : List Char} {ten two : Int}
      (signs : SpellsSign neg sign) (some : whole ++ fraction ≠ [])
      (digits : ∀ c ∈ whole ++ fraction, c.isDigit = true)
      (points : point = [] ∧ fraction = [] ∨ point = '.' :: fraction)
      (exponents : SpellsExponent ten two exponent) :
      Spells ⟨neg, digitsNat (whole ++ fraction), ten - fraction.length, two⟩
        (sign ++ (whole ++ (point ++ exponent)))

/-- A sign and the word for infinity. -/
inductive SpellsInfinity : Bool → List Char → Prop where
  | upper {neg : Bool} {sign : List Char} (signs : SpellsSign neg sign) :
      SpellsInfinity neg (sign ++ "Inf".toList)
  | lower {neg : Bool} {sign : List Char} (signs : SpellsSign neg sign) :
      SpellsInfinity neg (sign ++ "inf".toList)

theorem splitSign_of_spells {neg : Bool} {sign cs : List Char} (h : SpellsSign neg sign)
    (hcs : ∀ c ∈ cs.head?, c ≠ '+' ∧ c ≠ '-') : splitSign (sign ++ cs) = (neg, cs) := by
  cases h with
  | plus => rfl
  | minus => rfl
  | none =>
    cases cs with
    | nil => rfl
    | cons c cs =>
      obtain ⟨hplus, hminus⟩ := hcs c rfl
      rw [List.nil_append, splitSign]
      · rintro _ ⟨rfl, -⟩
        exact hplus rfl
      · rintro _ ⟨rfl, -⟩
        exact hminus rfl

theorem spells_of_splitSign {neg : Bool} {cs rest : List Char} (h : splitSign cs = (neg, rest)) :
    ∃ sign, SpellsSign neg sign ∧ cs = sign ++ rest := by
  unfold splitSign at h
  split at h
  · cases h
    exact ⟨_, .plus, rfl⟩
  · cases h
    exact ⟨_, .minus, rfl⟩
  · cases h
    exact ⟨_, .none, rfl⟩

theorem head?_ne_of_digit {ds : List Char} (h : ∀ d ∈ ds, d.isDigit = true) :
    ∀ d ∈ ds.head?, d ≠ '+' ∧ d ≠ '-' := by
  intro d hd
  have hdigit := h d (List.mem_of_mem_head? hd)
  constructor <;> rintro rfl <;> exact absurd hdigit (by decide)

theorem readExponents?_eq_some_iff {cs : List Char} {ten two : Int} :
    readExponents? cs = some (ten, two) ↔ SpellsExponent ten two cs := by
  constructor
  · intro h
    cases cs with
    | nil =>
      cases h
      exact .none
    | cons c cs =>
      cases hsplit : splitSign cs with
      | mk neg ds =>
        obtain ⟨sign, hsign, rfl⟩ := spells_of_splitSign hsplit
        rw [readExponents?, hsplit] at h
        obtain ⟨n, hn, h⟩ := Option.bind_eq_some_iff.mp h
        obtain ⟨hdigits, rfl⟩ := digitsValue?_eq_some_iff.mp hn
        simp only [Option.ite_none_left_eq_some, Bool.or_eq_true, Bool.not_eq_true', not_or,
          Bool.not_eq_false, List.isEmpty_iff] at h
        obtain ⟨⟨hsome, hfits⟩, h⟩ := h
        -- the letter before the digits tells which of the two exponents they are
        split_ifs at h with hten htwo
        · cases h
          exact .ten (by simpa using hten) hsign hsome hdigits hfits
        · cases h
          exact .two (by simpa using htwo) hsign hsome hdigits hfits
  · intro h
    cases h with
    | none => rfl
    | ten mark signs some digits fits =>
      have hsplit := splitSign_of_spells signs (head?_ne_of_digit digits)
      rcases mark with rfl | rfl <;> simp [readExponents?, hsplit, digitsValue?_digits digits, some,
        fits]
    | two mark signs some digits fits =>
      have hsplit := splitSign_of_spells signs (head?_ne_of_digit digits)
      rcases mark with rfl | rfl <;> simp [readExponents?, hsplit, digitsValue?_digits digits, some,
        fits]

/-- What follows the digits of a number is no digit and no point. -/
theorem SpellsExponent.head? {ten two : Int} {cs : List Char} (h : SpellsExponent ten two cs) :
    ∀ c ∈ cs.head?, c.isDigit = false ∧ c ≠ '.' := by
  cases h with
  | none => simp
  | ten mark => rcases mark with rfl | rfl <;> simp
  | two mark => rcases mark with rfl | rfl <;> simp

theorem splitPoint_of_ne {cs : List Char} (h : ∀ c ∈ cs.head?, c ≠ '.') :
    splitPoint cs = ([], cs) := by
  unfold splitPoint
  split
  · exact absurd rfl (h '.' rfl)
  · rfl

/-- A number that is spelled is read by its digits and exponents. -/
theorem parse?_of_spells {s : String} {n : Spelling} (h : Spells n s.toList) :
    parse? s = ofScientific? n.neg n.digits n.ten n.two := by
  generalize hcs : s.toList = cs at h
  cases h with
  | @intro neg sign whole point fraction exponent ten two signs some digits points exponents =>
    obtain ⟨hwhole, hfraction⟩ := List.forall_mem_append.mp digits
    have hexponent := exponents.head?
    -- the digits before the point, the point with its digits, and the exponent are found one by one
    have hpoint : splitPoint (point ++ exponent) = (fraction, exponent) := by
      rcases points with ⟨rfl, rfl⟩ | rfl
      · exact splitPoint_of_ne fun c hc => (hexponent c hc).2
      · obtain ⟨htake, hdrop⟩ :=
          Text.takeWhile_append_of_head hfraction fun c hc => (hexponent c hc).1
        rw [List.cons_append, splitPoint, htake, hdrop]
    have hhead : ∀ c ∈ (point ++ exponent).head?, c.isDigit = false := by
      rcases points with ⟨rfl, rfl⟩ | rfl
      · exact fun c hc => (hexponent c hc).1
      · simp
    obtain ⟨htake, hdrop⟩ := Text.takeWhile_append_of_head hwhole hhead
    have hfirst : ∀ c ∈ (whole ++ (point ++ exponent)).head?, c.isDigit = true ∨ c = '.' := by
      cases whole with
      | cons c whole =>
        intro d hd
        obtain rfl : d = c := by simpa using hd.symm
        exact .inl (hwhole d List.mem_cons_self)
      | nil =>
        rcases points with ⟨rfl, rfl⟩ | rfl
        · exact absurd rfl some
        · simp
    have hsign : splitSign (sign ++ (whole ++ (point ++ exponent))) =
        (neg, whole ++ (point ++ exponent)) := by
      refine splitSign_of_spells signs fun c hc => ?_
      rcases hfirst c hc with hdigit | rfl
      · constructor <;> rintro rfl <;> exact absurd hdigit (by decide)
      · decide
    have hword : ∀ word : List Char, word.head? = .some 'I' ∨ word.head? = .some 'i' →
        whole ++ (point ++ exponent) ≠ word := by
      rintro word hword rfl
      rcases hword with hword | hword <;>
      · rcases hfirst _ hword with hdigit | heq
        · exact absurd hdigit (by decide)
        · exact absurd heq (by decide)
    have hsome : (whole.isEmpty && fraction.isEmpty) = false := by
      cases whole <;> cases fraction <;> simp at some ⊢
    have hupper : whole ++ (point ++ exponent) ≠ "Inf".toList := hword _ (.inl rfl)
    have hlower : whole ++ (point ++ exponent) ≠ "inf".toList := hword _ (.inr rfl)
    unfold parse?
    rw [hcs, hsign]
    simp only [hupper, hlower, decide_false, Bool.or_self, Bool.false_eq_true, if_false, htake,
      hdrop, hpoint, hsome, readExponents?_eq_some_iff.mpr exponents, digitsValue?_digits digits]
    rfl

theorem parse?_of_spellsInfinity {s : String} {neg : Bool} (h : SpellsInfinity neg s.toList) :
    parse? s = some (infinity textPrecision neg) := by
  generalize hcs : s.toList = cs at h
  cases h with
  | upper signs =>
    rw [parse?, hcs, splitSign_of_spells signs (by simp)]
    rfl
  | lower signs =>
    rw [parse?, hcs, splitSign_of_spells signs (by simp)]
    rfl

/-- Only numbers that are spelled are read. -/
theorem spells_of_parse? {s : String} {b : Binary} (h : parse? s = some b) :
    (∃ neg, SpellsInfinity neg s.toList) ∨ ∃ n, Spells n s.toList := by
  cases hsplit : splitSign s.toList with
  | mk neg cs =>
  obtain ⟨sign, hsign, hcs⟩ := spells_of_splitSign hsplit
  simp only [parse?, hsplit] at h
  rw [hcs]
  split_ifs at h with hword hnone
  · simp only [Bool.or_eq_true, decide_eq_true_eq] at hword
    rcases hword with rfl | rfl
    · exact .inl ⟨neg, .upper hsign⟩
    · exact .inl ⟨neg, .lower hsign⟩
  · obtain ⟨⟨ten, two⟩, hexponents, h⟩ := Option.bind_eq_some_iff.mp h
    obtain ⟨n, hn, h⟩ := Option.bind_eq_some_iff.mp h
    obtain ⟨hdigits, -⟩ := digitsValue?_eq_some_iff.mp hn
    have hexponents := readExponents?_eq_some_iff.mp hexponents
    have hsome : cs.takeWhile Char.isDigit ++ (splitPoint (cs.dropWhile Char.isDigit)).1 ≠ [] := by
      simpa using hnone
    -- there may be a point without digits, and then it is still part of the text
    have hsplit : ∃ point, cs = cs.takeWhile Char.isDigit ++
          (point ++ (splitPoint (cs.dropWhile Char.isDigit)).2) ∧
        (point = [] ∧ (splitPoint (cs.dropWhile Char.isDigit)).1 = [] ∨
          point = '.' :: (splitPoint (cs.dropWhile Char.isDigit)).1) := by
      have hcut := List.takeWhile_append_dropWhile (p := Char.isDigit) (l := cs)
      generalize cs.takeWhile Char.isDigit = whole at *
      generalize cs.dropWhile Char.isDigit = rest at *
      unfold splitPoint
      split
      · rename_i r
        refine ⟨_, ?_, .inr rfl⟩
        rw [List.cons_append, List.takeWhile_append_dropWhile, hcut]
      · exact ⟨[], hcut.symm, .inl ⟨rfl, rfl⟩⟩
    obtain ⟨point, hwhole, hpoint⟩ := hsplit
    rw [hwhole]
    exact .inr ⟨_, .intro hsign hsome hdigits hpoint hexponents⟩

/-- The text of a number without sign: digits, and perhaps a point and more digits. -/
def pointText (whole fraction : List Char) : List Char :=
  whole ++ if fraction = [] then [] else '.' :: fraction

theorem spells_pointText {whole fraction : List Char} (hwhole : whole ≠ [])
    (hdigits : ∀ c ∈ whole ++ fraction, c.isDigit = true) :
    Spells ⟨false, digitsNat (whole ++ fraction), -fraction.length,
      0⟩ (pointText whole fraction) := by
  have hpoint : (if fraction = [] then [] else '.' :: fraction) = [] ∧ fraction = [] ∨
      (if fraction = [] then [] else '.' :: fraction) = '.' :: fraction := by
    split <;> simp [*]
  have hspells := Spells.intro .none (List.append_ne_nil_of_left_ne_nil hwhole fraction) hdigits
    hpoint .none
  rwa [List.append_nil, Int.zero_sub] at hspells

theorem parse?_pointText {whole fraction : List Char} (hwhole : whole ≠ [])
    (hdigits : ∀ c ∈ whole ++ fraction, c.isDigit = true) :
    parse? (String.ofList (pointText whole fraction)) =
      ofScientific? false (digitsNat (whole ++ fraction)) (-fraction.length) 0 := by
  have hspells := spells_pointText hwhole hdigits
  rw [← String.toList_ofList (l := pointText whole fraction)] at hspells
  exact parse?_of_spells hspells

/-! ## 3. Integers -/

theorem bitLength_le_iff {n p : Nat} : bitLength n ≤ p ↔ n < 2 ^ p := by
  unfold bitLength
  split
  · rename_i hn
    subst hn
    simp
  · rename_i hn
    rw [← Nat.log2_lt hn]
    exact Nat.succ_le_iff

/-- What fits the precision is kept as it is. -/
theorem round_of_lt {prec n : Nat} (neg : Bool) (hpos : n ≠ 0) (hn : n < 2 ^ prec) {e : Int}
    (hleast : -exponentBound ≤ bitLength n + e) (hgreatest : bitLength n + e < exponentBound) :
    round prec neg n e = ⟨prec, neg, .finite n e⟩ := by
  have hk : bitLength n - prec = 0 := Nat.sub_eq_zero_of_le (bitLength_le_iff.mpr hn)
  unfold round
  simp [hpos, hk, shiftRound, Int.not_lt.mpr hleast, Int.not_le.mpr hgreatest]

theorem isDigit_toDigits (n : Nat) : ∀ c ∈ Nat.toDigits 10 n ++ [], c.isDigit = true := by
  intro c hc
  rw [List.append_nil] at hc
  exact Nat.isDigit_of_mem_toDigits (by omega) (by omega) hc

theorem repr_eq_pointText (n : Nat) :
    n.repr = String.ofList (pointText (Nat.toDigits 10 n) []) := by
  rw [← Nat.toList_repr, pointText, if_pos rfl, List.append_nil, String.ofList_toList]

theorem parse?_repr {n : Nat} (hn : n < 2 ^ textPrecision) :
    ∃ b, parse? n.repr = some b ∧ b.toInt? = some (n : Int) := by
  have hvalue : digitsNat (Nat.toDigits 10 n ++ []) = n := by
    rw [List.append_nil]
    exact Nat.ofDigitChars_toDigits (by omega) (by omega)
  rw [repr_eq_pointText, parse?_pointText Nat.toDigits_ne_nil (isDigit_toDigits n), hvalue]
  unfold ofScientific?
  by_cases hzero : n = 0
  · subst hzero
    exact ⟨⟨textPrecision, false, .zero⟩, rfl, rfl⟩
  · have hlength : (bitLength n : Int) ≤ 512 := by exact_mod_cast bitLength_le_iff.mpr hn
    refine ⟨⟨textPrecision, false, .finite n 0⟩, ?_, ?_⟩
    · have hlow : -exponentBound ≤ bitLength n + 0 := by unfold exponentBound; omega
      have hhigh : bitLength n + 0 < exponentBound := by unfold exponentBound; omega
      have hround := round_of_lt false hzero hn hlow hhigh
      rw [Int.add_zero] at hlow hhigh
      simp [hzero, Int.not_lt.mpr hlow, Int.not_le.mpr hhigh, hround]
    · simp [toInt?]

end Binary

/-! ## 4. Confidences -/

namespace Double

/-- The one form that a finite double has. -/
def IsForm (m : Nat) (e : Int) : Prop :=
  m < 2 ^ mantissaBits ∧ minExponent ≤ e ∧ e ≤ maxExponent ∧
    (2 ^ (mantissaBits - 1) ≤ m ∨ e = minExponent)

instance (m : Nat) (e : Int) : Decidable (IsForm m e) := inferInstanceAs (Decidable (_ ∧ _))

/-- The mantissa and the exponent of a power of two whose neighbour below has another exponent, so
it is only half as far away as the neighbour above. -/
def IsStep (m : Nat) (e : Int) : Prop := m = 2 ^ (mantissaBits - 1) ∧ minExponent < e

/-- A finite double in its one form. -/
def IsProper : Double → Prop
  | .finite _ m e => IsForm m e
  | _ => False

instance (x : Double) : Decidable x.IsProper :=
  match x with
  | .finite _ m e => inferInstanceAs (Decidable (IsForm m e))
  | .infinite _ => isFalse id
  | .nan => isFalse id

theorem IsProper.isFinite {x : Double} (h : x.IsProper) : x.isFinite = true := by
  cases x with
  | finite neg m e => rfl
  | infinite => cases h
  | nan => cases h

def AtStep : Double → Prop
  | .finite _ m e => IsStep m e
  | _ => False

instance (x : Double) : Decidable x.AtStep :=
  match x with
  | .finite _ m e => inferInstanceAs (Decidable (m = 2 ^ (mantissaBits - 1) ∧ minExponent < e))
  | .infinite _ => isFalse id
  | .nan => isFalse id

/-- The number that the text of a double is read as; a sign before it is read on its own. -/
def reread? (x : Double) : Option Double :=
  match x.toBinary? with
  | some b =>
    (Binary.parse? { b with neg := false }.text).map fun n => ofBinary (if b.neg then
      n.negate else n)
  | none => none

/-- A finite double whose text is read as the same double. -/
def ReadsBack (x : Double) : Prop := x.isFinite = true ∧ x.reread? = some x

instance (x : Double) : Decidable x.ReadsBack := inferInstanceAs (Decidable (_ ∧ _))

/-- The neighbour toward zero of a power of two. -/
def beneath : Double → Double
  | .finite neg _ e => .finite neg (2 ^ mantissaBits - 1) (e - 1)
  | x => x

/-- What is left of a double when it is written and read: the double itself, but for powers of two
that do not read back. -/
def kept (x : Double) : Double := if x.AtStep ∧ ¬x.ReadsBack then x.beneath else x

end Double

end CypherBlocks
