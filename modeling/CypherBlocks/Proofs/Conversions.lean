import CypherBlocks.Proofs.NearestDouble
import CypherBlocks.Proofs.Readable

/-!
# What values become as arguments

A text argument takes texts, numbers and truth values, by their text; the text of a number spells
one that is at most half a unit in the last place away.  A number argument takes numbers and texts
that spell one, which are read with 512 bits.  A whole number has to be exactly the number of the
value, and fit in 64 bits with a sign; any other number becomes the nearest double.  A list argument
takes sequences of what a text argument takes.
-/

namespace CypherBlocks

/-! ## 1. Whole numbers -/

namespace Binary

/-- The number that is meant; infinity is none. -/
def value? (x : Binary) : Option ℚ :=
  match x.size with
  | .zero => some 0
  | .finite m e => some (if x.neg then -scaled m e else scaled m e)
  | .infinite => none

/-- The whole number of a given size, if it is one. -/
def wholeSize? (m : Nat) (e : Int) : Option Nat :=
  if 0 ≤ e then some (m <<< e.toNat)
  else if m % Nat.pow 2 (-e).toNat = 0 then some (m >>> (-e).toNat)
  else none

theorem wholeSize?_eq_some_iff {m n : Nat} {e : Int} :
    wholeSize? m e = some n ↔ scaled m e = n := by
  unfold wholeSize? scaled
  by_cases he : 0 ≤ e
  · obtain ⟨k, rfl⟩ := Int.eq_ofNat_of_zero_le he
    rw [if_pos he, Option.some_inj, Int.toNat_natCast, Nat.shiftLeft_eq, zpow_natCast]
    exact_mod_cast Iff.rfl
  · obtain ⟨k, hk⟩ := Int.eq_ofNat_of_zero_le (show 0 ≤ -e by omega)
    obtain rfl : e = -k := by omega
    have hpos : (0 : ℚ) < 2 ^ k := by positivity
    -- without bits behind the point nothing is lost by the shift
    have hsize : (m : ℚ) * 2 ^ (-(k : ℤ)) = n ↔ m = n * 2 ^ k := by
      rw [zpow_neg, zpow_natCast, ← div_eq_mul_inv, div_eq_iff hpos.ne']
      exact_mod_cast Iff.rfl
    rw [if_neg he, Int.neg_neg, Int.toNat_natCast, hsize, Nat.shiftRight_eq_div_pow]
    change (if m % 2 ^ k = 0 then some (m / 2 ^ k) else none) = some n ↔ _
    rw [Option.ite_none_right_eq_some, Option.some_inj]
    constructor
    · rintro ⟨hdvd, rfl⟩
      exact (Nat.div_mul_cancel (Nat.dvd_of_mod_eq_zero hdvd)).symm
    · rintro rfl
      exact ⟨Nat.mul_mod_left n _, Nat.mul_div_cancel n (Nat.two_pow_pos k)⟩

theorem toInt?_finite (prec : Nat) (neg : Bool) (m : Nat) (e : Int) :
    toInt? ⟨prec, neg, .finite m e⟩ = (wholeSize? m e).map fun n : Nat => if neg then
      -(n : Int) else n := by
  unfold toInt? wholeSize?
  simp only
  split_ifs <;> rfl

/-- A whole number is found exactly if it is the number that is meant. -/
theorem toInt?_eq_some_iff {x : Binary} {i : Int} :
    x.toInt? = some i ↔ x.value? = some (i : ℚ) := by
  obtain ⟨prec, neg, size⟩ := x
  cases size with
  | zero => simp [toInt?, value?, eq_comm]
  | infinite => simp [toInt?, value?]
  | finite m e =>
    have hnonneg : 0 ≤ scaled m e := by
      unfold scaled
      positivity
    rw [toInt?_finite, Option.map_eq_some_iff]
    simp only [wholeSize?_eq_some_iff, value?, Option.some_inj]
    constructor
    · rintro ⟨n, hn, rfl⟩
      cases neg <;> simp [hn]
    · intro h
      -- the sign stands apart from the size, so that an integer is its size or the opposite of it
      cases neg with
      | false =>
        have hsize : scaled m e = i := h
        have hi : 0 ≤ i := by
          rw [hsize] at hnonneg
          exact_mod_cast hnonneg
        obtain ⟨n, rfl⟩ := Int.eq_ofNat_of_zero_le hi
        exact ⟨n, hsize, rfl⟩
      | true =>
        have hsize : scaled m e = -i := by rw [← h, if_pos rfl, neg_neg]
        have hi : 0 ≤ -i := by
          rw [hsize] at hnonneg
          exact_mod_cast hnonneg
        obtain ⟨n, hn⟩ := Int.eq_ofNat_of_zero_le hi
        obtain rfl : i = -n := by omega
        exact ⟨n, by simpa using hsize, rfl⟩

/-! ## 2. Texts of numbers -/

/-- How a number is written.  A text that is not one of the four words spells a number that is at
most half a unit in the last place away. -/
structure WrittenAs (n : Binary) (s : String) : Prop where
  text : s = n.text
  zero : n.size = .zero → s = if n.neg then "-0" else "0"
  infinite : n.size = .infinite → s = if n.neg then "-Inf" else "+Inf"
  finite : ∀ m e, n.size = .finite m e → m ≠ 0 → 0 < n.prec → bitLength m ≤ n.prec + 1 →
    ∃ sp, Spells sp s.toList ∧ sp.neg = n.neg ∧
      |sp.size - scaled m e| ≤ 2 ^ (e + bitLength m - n.prec - 1)

/-- The text of a decimal after a sign spells it. -/
theorem spells_decimal {d : Decimal} (hd : d.IsDecimal) {neg : Bool} {sign : String}
    (hsign : SpellsSign neg sign.toList) :
    ∃ sp, Spells sp (sign ++ d.text).toList ∧ sp.neg = neg ∧ sp.size = d.value := by
  have hpoint : (if d.fractionDigits = [] then [] else '.' :: d.fractionDigits) = [] ∧
      d.fractionDigits = [] ∨
      (if d.fractionDigits = [] then [] else '.' :: d.fractionDigits) =
        '.' :: d.fractionDigits := by
    split <;> simp [*]
  have hspells := Spells.intro hsign
    (List.append_ne_nil_of_left_ne_nil d.wholeDigits_ne_nil d.fractionDigits)
      hd.isDigit hpoint .none
  rw [List.append_nil] at hspells
  rw [String.toList_append, text_eq_pointText, String.toList_ofList]
  refine ⟨_, hspells, rfl, ?_⟩
  rw [Spelling.size, hd.value_text, zpow_zero, mul_one, Int.zero_sub]

theorem writtenAs_text (n : Binary) : WrittenAs n n.text := by
  obtain ⟨prec, neg, size⟩ := n
  refine ⟨rfl, ?_, ?_, ?_⟩
  · rintro ⟨⟩
    rfl
  · rintro ⟨⟩
    rfl
  · rintro m e ⟨⟩ hm hprec hbits
    have hsign : SpellsSign neg (if neg then "-" else "").toList := by
      cases neg
      · exact .none
      · exact .minus
    obtain ⟨sp, hspells, hneg, hsize⟩ := spells_decimal (isDecimal_shortest prec m e) hsign
    refine ⟨sp, hspells, hneg, ?_⟩
    rw [hsize]
    exact abs_shortest_sub_le hprec hm hbits e

end Binary

/-! ## 3. Doubles of numbers -/

namespace Double

open Binary

/-- The double that a number becomes: the nearest one, with the same sign.  A finite number does not
become infinite. -/
inductive Approximates : Binary → Double → Prop where
  | infinite {n : Binary} (size : n.size = .infinite) : Approximates n (.infinite n.neg)
  | finite {n : Binary} {q : ℚ} {m : Nat} {e : Int} (value : n.value? = some q)
      (bounded : |q| < overflowBound) (nearest : IsNearest |q| m e) :
      Approximates n (.finite n.neg m e)

theorem abs_value {n : Binary} {q : ℚ} {m : Nat} {e : Int} (hsize : n.size = .finite m e)
    (hq : n.value? = some q) : |q| = scaled m e := by
  have hnonneg : 0 ≤ scaled m e := by
    unfold scaled
    positivity
  unfold value? at hq
  rw [hsize] at hq
  obtain rfl := Option.some.inj hq
  split
  · rw [abs_neg, abs_of_nonneg hnonneg]
  · exact abs_of_nonneg hnonneg

theorem isNearest_zero : IsNearest 0 0 minExponent := by
  have hzero : scaled 0 minExponent = 0 := by simp [scaled]
  have hnear : |scaled 0 minExponent - 0| ≤ 1 / 2 * 2 ^ minExponent := by
    rw [hzero, sub_zero, abs_zero]
    positivity
  exact isNearest_of_grid hnear (fun _ => rfl) (.inl rfl) le_rfl (by decide) (by decide)

theorem overflowBound_pos : 0 < overflowBound := by
  have hlt : (2 : ℚ) ^ 970 < 2 ^ 1024 := pow_lt_pow_right₀ (by norm_num) (by norm_num)
  exact sub_pos.mpr hlt

/-- A number with a value is converted to the nearest double, unless that value is too large. -/
theorem ofBinary_of_value {n : Binary} {q : ℚ} (hq : n.value? = some q) :
    (|q| < overflowBound → ∃ m e, ofBinary n = .finite n.neg m e ∧ IsNearest |q| m e) ∧
      (overflowBound ≤ |q| → ofBinary n = .infinite n.neg) := by
  have hzero : ofBinary n = .finite n.neg 0 minExponent → q = 0 →
      (|q| < overflowBound → ∃ m e, ofBinary n = .finite n.neg m e ∧ IsNearest |q| m e) ∧
        (overflowBound ≤ |q| → ofBinary n = .infinite n.neg) := by
    rintro heq rfl
    rw [abs_zero]
    exact ⟨fun _ => ⟨_, _, heq, isNearest_zero⟩, fun h => absurd overflowBound_pos (not_lt.mpr h)⟩
  obtain ⟨prec, neg, size⟩ := n
  cases size with
  | infinite => cases hq
  | zero =>
    cases hq
    exact hzero rfl rfl
  | finite m e =>
    have habs := abs_value rfl hq
    by_cases hm : m = 0
    · subst hm
      have hsize : scaled 0 e = 0 := by simp [scaled]
      exact hzero rfl (abs_eq_zero.mp (habs.trans hsize))
    · rw [habs]
      exact ofBinary_spec prec neg hm e

/-- A number is converted to the nearest double, if that is finite or the number is not. -/
theorem ofBinary_eq_iff {n : Binary} {x : Double} :
    (n.isInfinite = true ∨ (ofBinary n).isFinite = true) ∧ ofBinary n = x ↔ Approximates n x := by
  cases hq : n.value? with
  | none =>
    have hsize : n.size = .infinite := by
      cases hsize : n.size <;> simp [value?, hsize] at hq ⊢
    have hinfinite : ofBinary n = .infinite n.neg := by simp [ofBinary, hsize]
    constructor
    · rintro ⟨-, rfl⟩
      rw [hinfinite]
      exact .infinite hsize
    · intro h
      cases h with
      | infinite => exact ⟨.inl (by simp [isInfinite, hsize]), hinfinite⟩
      | finite value => cases hq.symm.trans value
  | some q =>
    obtain ⟨hnearest, hover⟩ := ofBinary_of_value hq
    have hnot : n.isInfinite = false := by
      cases hsize : n.size <;> simp [isInfinite, value?, hsize] at hq ⊢
    -- a finite number that is too large becomes infinite, and that is no approximation
    rcases lt_or_ge |q| overflowBound with hlt | hge
    · obtain ⟨m, e, heq, h⟩ := hnearest hlt
      rw [heq]
      constructor
      · rintro ⟨-, rfl⟩
        exact .finite hq hlt h
      · intro happroximates
        refine ⟨.inr rfl, ?_⟩
        cases happroximates with
        | infinite hsize => simp [value?, hsize] at hq
        | finite value bounded nearest =>
          cases hq.symm.trans value
          obtain ⟨rfl, rfl⟩ := h.unique nearest
          rfl
    · rw [hover hge]
      refine iff_of_false (by simp [hnot, isFinite]) fun h => ?_
      cases h with
      | infinite hsize => simp [value?, hsize] at hq
      | finite value bounded =>
        cases hq.symm.trans value
        exact absurd bounded (not_lt.mpr hge)

end Double

open Config (Ty Value)

namespace Document

/-! ## 4. Texts, numbers and lists -/

/-- The text of a value that has one. -/
inductive TextOf : Value → String → Prop where
  | text (s : String) : TextOf (.text s) s
  | number {n : Binary} {s : String} (written : n.WrittenAs s) : TextOf (.number n) s
  | bool (b : Bool) : TextOf (.bool b) (if b then "true" else "false")

/-- The number that a value is, or that it spells. -/
inductive NumberOf : Value → Binary → Prop where
  | number (n : Binary) : NumberOf (.number n) n
  | spelled {s : String} {n : Binary} {sp : Binary.Spelling} (spells : Binary.Spells sp s.toList)
      (bounds : sp.InBounds) (read : Binary.parse? s = some n)
      (sign : n.prec = Binary.textPrecision ∧ n.neg = sp.neg) (size : sp.Reads n.size) :
      NumberOf (.text s) n
  | infinite {s : String} {neg : Bool} (spells : Binary.SpellsInfinity neg s.toList) :
      NumberOf (.text s) (Binary.infinity Binary.textPrecision neg)

/-- The texts of a sequence; what a list calls a text has to be one. -/
inductive TextsOf : Value → List String → Prop where
  | tuple {items : List Value} {ss : List String} (each : List.Forall₂ TextOf items ss) :
      TextsOf (.tuple items) ss
  | list {e : Ty} {items : List Value} {ss : List String} (element : e.converts .text = true)
      (each : List.Forall₂ TextOf items ss) (same : e = .text → items = ss.map .text) :
      TextsOf (.list e items) ss

/-- What a value is as an argument of some type. -/
inductive Converts : ArgumentTy → Value → ArgumentValue → Prop where
  | text {v : Value} {s : String} (h : TextOf v s) : Converts .text v (.text s)
  /-- Nothing is cut off or wrapped around. -/
  | whole {v : Value} {n : Binary} {i : Int} (h : NumberOf v n) (exact : n.value? = some (i : ℚ))
      (least : -2 ^ 63 ≤ i) (greatest : i < 2 ^ 63) : Converts .whole v (.whole i)
  | real {v : Value} {n : Binary} {x : Double} (h : NumberOf v n)
      (nearest : Double.Approximates n x) : Converts .real v (.real x)
  | texts {v : Value} {ss : List String} (h : TextsOf v ss) : Converts .texts v (.texts ss)

theorem takeText_eq_ok_iff {w : Value} {s : String} : takeText w = .ok s ↔ w = .text s := by
  cases w <;> simp [takeText]

theorem mapM_takeText_eq_ok_iff {items : List Value} {ss : List String} :
    items.mapM takeText = .ok ss ↔ items = ss.map .text := by
  refine ⟨fun h => ?_, fun h => h ▸ Config.mapM_takeText ss⟩
  induction items generalizing ss with
  | nil =>
    cases h
    rfl
  | cons v items ih =>
    rw [List.mapM_cons] at h
    obtain ⟨s, hs, h⟩ := bind_eq_ok_iff.mp h
    obtain ⟨more, hmore, h⟩ := bind_eq_ok_iff.mp h
    cases h
    rw [takeText_eq_ok_iff.mp hs, ih hmore, List.map_cons]

/-- What is not known stays so, and so does what is null. -/
theorem convert_unknown {t want : Ty} {w : Value} (h : (Value.unknown t).convert want = .ok w) :
    w.isKnown = false := by
  unfold Value.convert at h
  split_ifs at h
  · cases h
    rfl
  · cases want <;> simp [Value.convertTo] at h <;> subst h <;> rfl

theorem convert_null {t want : Ty} {w : Value} (h : (Value.null t).convert want = .ok w) :
    w.isNull = true := by
  unfold Value.convert at h
  split_ifs at h
  · cases h
    rfl
  · cases want <;> simp [Value.convertTo] at h <;> subst h <;> rfl

theorem convertTo_text_eq_ok_iff {v : Value} {s : String} :
    v.convertTo .text = .ok (.text s) ↔ TextOf v s := by
  constructor
  · intro h
    cases v with
    | number n =>
      cases h
      exact .number (Binary.writtenAs_text n)
    | bool b =>
      cases h
      exact .bool b
    | _ => simp [Value.convertTo] at h <;> subst h <;> constructor
  · intro h
    cases h with
    | text => simp [Value.convertTo]
    | number written => simp [Value.convertTo, written.text]
    | bool => simp [Value.convertTo, Value.boolText]

theorem convert_text_eq_ok_iff {v : Value} {s : String} :
    v.convert .text = .ok (.text s) ↔ TextOf v s := by
  constructor
  · intro h
    cases v with
    | unknown t => exact absurd (convert_unknown h) (by simp [Value.isKnown])
    | null t => exact absurd (convert_null h) (by simp [Value.isNull])
    | text s =>
      cases h
      exact .text _
    | number n =>
      simp [Value.convert, Value.ty, Ty.converts, Value.convertTo, BEq.beq, Ty.same] at h
      exact h ▸ .number (Binary.writtenAs_text n)
    | bool b =>
      simp [Value.convert, Value.ty, Ty.converts, Value.convertTo, BEq.beq, Ty.same] at h
      exact h ▸ .bool b
    | _ => simp [Value.convert, Value.ty, Ty.converts, BEq.beq, Ty.same] at h
  · intro h
    cases h with
    | text => simp [Value.convert, Value.ty, BEq.beq, Ty.same]
    | number written =>
      simp [Value.convert, Value.ty, Ty.converts, Value.convertTo, BEq.beq, Ty.same, written.text]
    | bool =>
      simp [Value.convert, Value.ty, Ty.converts, Value.convertTo, BEq.beq, Ty.same, Value.boolText]

theorem numberOf_text_iff {s : String} {n : Binary} :
    NumberOf (.text s) n ↔ Binary.parse? s = some n := by
  constructor
  · intro h
    cases h with
    | spelled spells bounds read => exact read
    | infinite spells => exact Binary.parse?_of_spellsInfinity spells
  · intro h
    rcases Binary.spells_of_parse? h with ⟨neg, hinfinity⟩ | ⟨sp, hspells⟩
    · rw [Binary.parse?_of_spellsInfinity hinfinity] at h
      cases h
      exact .infinite hinfinity
    · obtain ⟨hbounds, hprec, hneg, hreads⟩ := hspells.parse?.1 n h
      exact .spelled hspells hbounds h ⟨hprec, hneg⟩ hreads

theorem convert_number_eq_ok_iff {v : Value} {n : Binary} :
    v.convert .number = .ok (.number n) ↔ NumberOf v n := by
  constructor
  · intro h
    cases v with
    | unknown t => exact absurd (convert_unknown h) (by simp [Value.isKnown])
    | null t => exact absurd (convert_null h) (by simp [Value.isNull])
    | number m =>
      cases h
      exact .number _
    | text s =>
      refine numberOf_text_iff.mpr ?_
      cases hparse : Binary.parse? s with
      | none =>
        simp [Value.convert, Value.ty, Ty.converts, Value.convertTo, BEq.beq, Ty.same, hparse] at h
      | some m =>
        simp [Value.convert, Value.ty, Ty.converts, Value.convertTo, BEq.beq, Ty.same, hparse] at h
        rw [h]
    -- nothing else has a type that is converted to a number
    | _ => simp [Value.convert, Value.ty, Ty.converts, BEq.beq, Ty.same] at h
  · intro h
    cases v with
    | number m =>
      cases h
      simp [Value.convert, Value.ty, BEq.beq, Ty.same]
    | text s =>
      simp [Value.convert, Value.ty, Ty.converts, Value.convertTo, BEq.beq, Ty.same,
        numberOf_text_iff.mp h]
    | _ => cases h

/-- Items are converted one by one. -/
theorem convertAll_eq_ok_iff {items : List Value} {ss : List String} :
    Value.convertAll items .text = .ok (ss.map .text) ↔ List.Forall₂ TextOf items ss := by
  induction items generalizing ss with
  | nil => cases ss <;> simp [Value.convertAll]
  | cons v items ih =>
    rw [Value.convertAll, bind_eq_ok_iff]
    constructor
    · rintro ⟨w, hw, h⟩
      obtain ⟨ws, hws, h⟩ := bind_eq_ok_iff.mp h
      cases ss with
      | nil => cases h
      | cons s ss =>
        cases h
        exact .cons (convertTo_text_eq_ok_iff.mp hw) (ih.mp hws)
    · intro h
      cases h with
      | cons hv hitems =>
        refine ⟨_, convertTo_text_eq_ok_iff.mpr hv, ?_⟩
        rw [ih.mpr hitems]
        rfl

theorem TextOf.converts {v : Value} {s : String} (h : TextOf v s) : v.ty.converts .text = true := by
  cases h <;> simp [Value.ty, Ty.converts]

theorem allConvert_tys {items : List Value} {ss : List String} (h : List.Forall₂ TextOf items ss) :
    Ty.allConvert (Value.tys items) .text = true := by
  induction h with
  | nil => simp [Value.tys, Ty.allConvert]
  | cons hv _ ih => simp [Value.tys, Ty.allConvert, hv.converts, ih]

theorem same_text_iff {e : Ty} : e.same .text = true ↔ e = .text := by
  cases e <;> simp [Ty.same]

theorem convert_list_text (items : List Value) :
    (Value.list .text items).convert (.list .text) = .ok (.list .text items) := by
  unfold Value.convert
  rw [if_pos (by simp [Value.ty, BEq.beq, Ty.same])]

theorem convert_list_of_ne {e : Ty} (h : e ≠ .text) (items : List Value) :
    (Value.list e items).convert (.list .text) =
    if e.converts .text then (do return .list .text (← Value.convertAll items .text))
    else .error (.mismatch (.list e) (.list .text)) := by
  have hne : ¬((Value.list e items).ty == .list .text) = true := by
    simpa [Value.ty, BEq.beq, Ty.same, same_text_iff] using h
  unfold Value.convert
  rw [if_neg hne, Value.convertTo]
  simp only [Value.ty, Ty.converts]

theorem convert_tuple (items : List Value) : (Value.tuple items).convert (.list .text) =
    if Ty.allConvert (Value.tys items) .text then
      (do return .list .text (← Value.convertAll items .text))
    else .error (.mismatch (.tuple (Value.tys items)) (.list .text)) := by
  have hne : ¬((Value.tuple items).ty == .list .text) = true := by
    simp [Value.ty, BEq.beq, Ty.same]
  unfold Value.convert
  rw [if_neg hne, Value.convertTo]
  simp only [Value.ty, Ty.converts]

theorem convert_texts_eq_ok_iff {v : Value} {ss : List String} :
    (∃ e, v.convert (.list .text) = .ok (.list e (ss.map .text))) ↔ TextsOf v ss := by
  constructor
  · rintro ⟨e, h⟩
    cases v with
    | unknown t => exact absurd (convert_unknown h) (by simp [Value.isKnown])
    | null t => exact absurd (convert_null h) (by simp [Value.isNull])
    | tuple items =>
      rw [convert_tuple] at h
      split_ifs at h
      obtain ⟨ws, hws, h⟩ := bind_eq_ok_iff.mp h
      cases h
      exact .tuple (convertAll_eq_ok_iff.mp hws)
    | list element items =>
      -- a list of texts is taken as it is, and any other list item by item
      by_cases htext : element = .text
      · subst htext
        rw [convert_list_text] at h
        cases h
        refine .list (by simp [Ty.converts]) ?_ fun _ => rfl
        rw [List.forall₂_map_left_iff, List.forall₂_same]
        exact fun s _ => .text s
      · rw [convert_list_of_ne htext] at h
        split_ifs at h with hconverts
        obtain ⟨ws, hws, h⟩ := bind_eq_ok_iff.mp h
        cases h
        exact .list hconverts (convertAll_eq_ok_iff.mp hws) fun h => absurd h htext
    | _ => simp [Value.convert, Value.ty, Ty.converts, BEq.beq, Ty.same] at h
  · intro h
    cases h with
    | tuple each =>
      rw [convert_tuple, if_pos (allConvert_tys each), convertAll_eq_ok_iff.mpr each]
      exact ⟨.text, rfl⟩
    | @list e items _ element each same =>
      by_cases htext : e = .text
      · rw [same htext, htext, convert_list_text]
        exact ⟨.text, rfl⟩
      · rw [convert_list_of_ne htext, if_pos element, convertAll_eq_ok_iff.mpr each]
        exact ⟨.text, rfl⟩

/-- Nothing becomes null when it is converted to a list. -/
theorem isNull_of_convert_texts {v w : Value} (hv : v.isNull = false)
    (h : v.convert (.list .text) = .ok w) : w.isNull = false := by
  cases v with
  | unknown t =>
    have hw := convert_unknown h
    cases w <;> first | rfl | cases hw
  | null t => cases hv
  | tuple items =>
    rw [convert_tuple] at h
    split_ifs at h
    obtain ⟨ws, -, h⟩ := bind_eq_ok_iff.mp h
    cases h
    rfl
  | list element items =>
    -- a list of texts is left as it is, any other is converted item by item
    by_cases htext : element = .text
    · subst htext
      rw [convert_list_text] at h
      cases h
      rfl
    · rw [convert_list_of_ne htext] at h
      split_ifs at h
      obtain ⟨ws, -, h⟩ := bind_eq_ok_iff.mp h
      cases h
      rfl
  | _ => simp [Value.convert, Value.ty, Ty.converts, BEq.beq, Ty.same] at h

/-! ## 5. Arguments -/

theorem takeWhole_eq_ok_iff {w : Value} {i : Int} :
    takeWhole w = .ok i ↔ ∃ n, w = .number n ∧ n.value? = some (i : ℚ) ∧ -2 ^ 63 ≤ i ∧
      i < 2 ^ 63 := by
  cases w with
  | number n =>
    simp only [← Binary.toInt?_eq_some_iff, Value.number.injEq, exists_eq_left']
    unfold takeWhole leastWhole greatestWhole
    cases hn : n.toInt? with
    | none => simp [hn]
    | some j =>
      simp only [hn, Bool.and_eq_true, decide_eq_true_eq, Option.some_inj]
      constructor
      · intro h
        split_ifs at h with hrange
        cases h
        exact ⟨rfl, by omega, by omega⟩
      · rintro ⟨rfl, hleast, hgreatest⟩
        rw [if_pos ⟨by omega, by omega⟩]
  | _ => simp [takeWhole]

theorem takeReal_eq_ok_iff {w : Value} {x : Double} :
    takeReal w = .ok x ↔ ∃ n, w = .number n ∧ Double.Approximates n x := by
  cases w with
  | number n =>
    simp only [Value.number.injEq, exists_eq_left', ← Double.ofBinary_eq_iff]
    unfold takeReal
    simp only [Bool.or_eq_true]
    split_ifs with hfinite <;> simp [hfinite]
  | _ => simp [takeReal]

theorem takeTexts_eq_ok_iff {w : Value} {ss : List String} (hnull : w.isNull = false) :
    takeTexts w = .ok ss ↔ ∃ e, w = .list e (ss.map .text) := by
  cases w with
  | list e items => simpa [takeTexts] using mapM_takeText_eq_ok_iff
  | null t => cases hnull
  | _ => simp [takeTexts]

theorem decodeValue_snd_eq_ok_iff {ty : ArgumentTy} {v : Value} {x : ArgumentValue} :
    (decodeValue ty v).2 = .ok x ↔ ∃ w, v.convert (valueTy ty) = .ok w ∧ take ty w = .ok x := by
  unfold decodeValue
  cases v.convert (valueTy ty) <;> simp

/-- Values are converted exactly as they should be; null is no list. -/
theorem decodeValue_eq_ok_iff {ty : ArgumentTy} {v : Value} {x : ArgumentValue}
    (hnull : ty = .texts → v.isNull = false) : (decodeValue ty v).2 = .ok x ↔ Converts ty v x := by
  rw [decodeValue_snd_eq_ok_iff]
  -- for each type: the conversion, and then the value that is taken out of what was converted
  cases ty with
  | text =>
    constructor
    · rintro ⟨w, hw, h⟩
      obtain ⟨s, hs, rfl⟩ := map_eq_ok_iff.mp h
      cases takeText_eq_ok_iff.mp hs
      exact .text (convert_text_eq_ok_iff.mp hw)
    · rintro ⟨h⟩
      exact ⟨_, convert_text_eq_ok_iff.mpr h, rfl⟩
  | whole =>
    constructor
    · rintro ⟨w, hw, h⟩
      obtain ⟨i, hi, rfl⟩ := map_eq_ok_iff.mp h
      obtain ⟨n, rfl, hexact, hleast, hgreatest⟩ := takeWhole_eq_ok_iff.mp hi
      exact .whole (convert_number_eq_ok_iff.mp hw) hexact hleast hgreatest
    · intro h
      cases h with
      | @whole _ n i h hexact hleast hgreatest =>
        refine ⟨_, convert_number_eq_ok_iff.mpr h, map_eq_ok_iff.mpr ⟨i, ?_, rfl⟩⟩
        exact takeWhole_eq_ok_iff.mpr ⟨n, rfl, hexact, hleast, hgreatest⟩
  | real =>
    constructor
    · rintro ⟨w, hw, h⟩
      obtain ⟨i, hi, rfl⟩ := map_eq_ok_iff.mp h
      obtain ⟨n, rfl, hnearest⟩ := takeReal_eq_ok_iff.mp hi
      exact .real (convert_number_eq_ok_iff.mp hw) hnearest
    · intro h
      cases h with
      | @real _ n x h hnearest =>
        refine ⟨_, convert_number_eq_ok_iff.mpr h, map_eq_ok_iff.mpr ⟨_, ?_, rfl⟩⟩
        exact takeReal_eq_ok_iff.mpr ⟨n, rfl, hnearest⟩
  | texts =>
    constructor
    · rintro ⟨w, hw, h⟩
      obtain ⟨ss, hss, rfl⟩ := map_eq_ok_iff.mp h
      obtain ⟨e, rfl⟩ := (takeTexts_eq_ok_iff (isNull_of_convert_texts (hnull rfl) hw)).mp hss
      exact .texts (convert_texts_eq_ok_iff.mp ⟨e, hw⟩)
    · intro h
      cases h with
      | texts h =>
        obtain ⟨e, he⟩ := convert_texts_eq_ok_iff.mpr h
        exact ⟨_, he, map_eq_ok_iff.mpr ⟨_, (takeTexts_eq_ok_iff rfl).mpr ⟨e, rfl⟩, rfl⟩⟩

theorem Converts.ty_eq {ty : ArgumentTy} {v : Value} {x : ArgumentValue} (h : Converts ty v x) :
    x.ty = ty := by
  cases h <;> rfl

theorem Converts.isNull_eq_false {ty : ArgumentTy} {v : Value} {x : ArgumentValue}
    (h : Converts ty v x) : v.isNull = false := by
  cases h with
  | text h => cases h <;> rfl
  | whole h => cases h <;> rfl
  | real h => cases h <;> rfl
  | texts h => cases h <;> rfl

/-- A value is one thing only as an argument of a type. -/
theorem Converts.unique {ty : ArgumentTy} {v : Value} {x y : ArgumentValue} (hx : Converts ty v x)
    (hy : Converts ty v y) : x = y := by
  have hdecode : ∀ {z : ArgumentValue}, Converts ty v z → (decodeValue ty v).2 = .ok z :=
    (decodeValue_eq_ok_iff fun _ => hx.isNull_eq_false).mpr
  exact Except.ok.inj ((hdecode hx).symm.trans (hdecode hy))

end Document

end CypherBlocks
