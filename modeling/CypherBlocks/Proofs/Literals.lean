import CypherBlocks.Cypher.Literal
import CypherBlocks.Proofs.ByteOrder

/-!
# What bytes say, and how a string literal says it

Bytes say a text: where the encoding of a character begins they say that character, and any other
byte stands for a replacement character.  Since no encoding is the beginning of another one, every
sequence of bytes says exactly one text.  The string literal of the bytes is read back as that text,
whatever follows the literal.
-/

namespace CypherBlocks.Text

/-- The bytes are the encodings of characters one after another, with other bytes in between; each
of these, where no encoding begins, says a replacement character. -/
inductive Says : List UInt8 → List Char → Prop where
  | done : Says [] []
  | char (c : Char) {bytes : List UInt8} {cs : List Char} (rest : Says bytes cs) :
      Says (String.utf8EncodeChar c ++ bytes) (c :: cs)
  | broken (b : UInt8) {bytes : List UInt8} {cs : List Char}
      (none : ∀ c, ¬ String.utf8EncodeChar c <+: b :: bytes) (rest : Says bytes cs) :
      Says (b :: bytes) (Symbol.replacement :: cs)

/-! ## 1. The bytes of one character -/

theorem toNat_lt (c : Char) : c.toNat < 0x110000 := by
  rcases c.valid with hc | hc
  · exact Nat.lt_trans hc (by decide)
  · exact hc.2

theorem toNat_ofNat_of_valid {n : Nat} (h : n.isValidChar) : (Char.ofNat n).toNat = n := by
  rw [Char.ofNat, dif_pos h]
  rfl

theorem utf8EncodeChar_eq (c : Char) :
    String.utf8EncodeChar c =
      if c.toNat ≤ 0x7f then [UInt8.ofNat c.toNat]
      else if c.toNat ≤ 0x7ff then
        [UInt8.ofNat (c.toNat / 64 % 32 + 0xc0), UInt8.ofNat (c.toNat % 64 + 0x80)]
      else if c.toNat ≤ 0xffff then
        [UInt8.ofNat (c.toNat / 4096 % 16 + 0xe0), UInt8.ofNat (c.toNat / 64 % 64 + 0x80),
          UInt8.ofNat (c.toNat % 64 + 0x80)]
      else
        [UInt8.ofNat (c.toNat / 262144 % 8 + 0xf0), UInt8.ofNat (c.toNat / 4096 % 64 + 0x80),
          UInt8.ofNat (c.toNat / 64 % 64 + 0x80),
          UInt8.ofNat (c.toNat % 64 + 0x80)] :=
  rfl

theorem isContinuation_iff {b : UInt8} :
    isContinuation b = true ↔ 0x80 ≤ b.toNat ∧ b.toNat < 0xc0 := by
  rw [isContinuation, Bool.and_eq_true, decide_eq_true_iff, decide_eq_true_iff,
    UInt8.le_iff_toNat_le, UInt8.lt_iff_toNat_lt]
  rfl

theorem isContinuation_ofNat (n : Nat) : isContinuation (UInt8.ofNat (n % 64 + 0x80)) = true := by
  rw [isContinuation_iff, UInt8.toNat_ofNat']
  omega

theorem payload_ofNat (n : Nat) : payload (UInt8.ofNat (n % 64 + 0x80)) = n % 64 := by
  rw [payload, UInt8.toNat_ofNat']
  omega

theorem payload_lt (b : UInt8) : payload b < 64 := Nat.mod_lt _ (by decide)

/-- A continuation byte is known by its payload. -/
theorem ofNat_payload {b : UInt8} (hb : isContinuation b = true) {n : Nat}
    (hn : n % 64 = payload b) : UInt8.ofNat (n % 64 + 0x80) = b := by
  obtain ⟨hlow, hhigh⟩ := isContinuation_iff.mp hb
  rw [← UInt8.toNat_inj, UInt8.toNat_ofNat', hn, payload]
  omega

/-! ## 2. How a symbol begins -/

theorem between_iff {a low high : UInt8} :
    (decide (low ≤ a) && decide (a < high)) = true ↔ low.toNat ≤ a.toNat ∧
      a.toNat < high.toNat := by
  rw [Bool.and_eq_true, decide_eq_true_iff, decide_eq_true_iff, UInt8.le_iff_toNat_le,
    UInt8.lt_iff_toNat_lt]

theorem not_lt_of_le_toNat {a : UInt8} (h : 0x80 ≤ a.toNat) : ¬ a < 0x80 := fun hlow =>
  absurd (UInt8.lt_iff_toNat_lt.mp hlow) (Nat.not_lt.mpr h)

section Lengths

variable {a b c d : UInt8} (hb : isContinuation b = true) (hc : isContinuation c = true)
  (hd : isContinuation d = true) (rest : List UInt8)

include hb in
theorem leading_two (hlow : 0xc0 ≤ a.toNat) (hhigh : a.toNat < 0xe0) :
    leading a (b :: rest) = (classify (a.toNat % 32 * 64 + payload b) 0x80 [a, b], 1) := by
  have hlead : (decide (0xc0 ≤ a) && decide (a < 0xe0)) = true := between_iff.mpr ⟨hlow, hhigh⟩
  have hwide : ¬ a < 0x80 := not_lt_of_le_toNat (Nat.le_trans (by decide) hlow)
  rw [leading, if_neg hwide, List.take_succ_cons, List.takeWhile_cons_of_pos hb]
  exact if_pos hlead

include hb hc in
theorem leading_three (hlow : 0xe0 ≤ a.toNat) (hhigh : a.toNat < 0xf0) :
    leading a (b :: c :: rest) =
      (classify ((a.toNat % 16 * 64 + payload b) * 64 + payload c) 0x800 [a, b, c], 2) := by
  have hlead : (decide (0xe0 ≤ a) && decide (a < 0xf0)) = true := between_iff.mpr ⟨hlow, hhigh⟩
  have hwide : ¬ a < 0x80 := not_lt_of_le_toNat (Nat.le_trans (by decide) hlow)
  have htwo : ¬ (decide (0xc0 ≤ a) && decide (a < 0xe0)) = true :=
    fun h => absurd (between_iff.mp h).2 (Nat.not_lt.mpr hlow)
  rw [leading, if_neg hwide, List.take_succ_cons, List.takeWhile_cons_of_pos hb,
    List.take_succ_cons, List.takeWhile_cons_of_pos hc]
  exact (if_neg htwo).trans (if_pos hlead)

include hb hc hd in
theorem leading_four (hlow : 0xf0 ≤ a.toNat) (hhigh : a.toNat < 0xf8) :
    leading a (b :: c :: d :: rest) =
      (classify (((a.toNat % 8 * 64 + payload b) * 64 + payload c) * 64 + payload d) 0x10000
        [a, b, c, d], 3) := by
  have hlead : (decide (0xf0 ≤ a) && decide (a < 0xf8)) = true := between_iff.mpr ⟨hlow, hhigh⟩
  have hwide : ¬ a < 0x80 := not_lt_of_le_toNat (Nat.le_trans (by decide) hlow)
  have htwo : ¬ (decide (0xc0 ≤ a) && decide (a < 0xe0)) = true := fun h =>
    absurd (between_iff.mp h).2 (Nat.not_lt.mpr (Nat.le_trans (by decide) hlow))
  have hthree : ¬ (decide (0xe0 ≤ a) && decide (a < 0xf0)) = true :=
    fun h => absurd (between_iff.mp h).2 (Nat.not_lt.mpr hlow)
  rw [leading, if_neg hwide, List.take_succ_cons, List.takeWhile_cons_of_pos hb,
    List.take_succ_cons, List.takeWhile_cons_of_pos hc, List.take_succ_cons,
    List.takeWhile_cons_of_pos hd]
  exact (if_neg htwo).trans ((if_neg hthree).trans (if_pos hlead))

end Lengths

theorem classify_toNat (c : Char) {n low : Nat} (hn : n = c.toNat) (hlow : low ≤ c.toNat)
    (bytes : List UInt8) : classify n low bytes = .char c := by
  have hfits : (decide (low ≤ n) && decide n.isValidChar) = true := by
    rw [Bool.and_eq_true, decide_eq_true_iff, decide_eq_true_iff, hn]
    exact ⟨hlow, c.valid⟩
  rw [classify, if_pos hfits, hn, Char.ofNat_toNat]

/-- Where the bytes of a character stand, that character is read. -/
theorem leading_utf8EncodeChar {c : Char} {a : UInt8} {more : List UInt8}
    (h : String.utf8EncodeChar c = a :: more) (rest : List UInt8) :
    leading a (more ++ rest) = (.char c, more.length) := by
  have hmax := toNat_lt c
  rw [utf8EncodeChar_eq] at h
  -- one case for each number of bytes; the number of the character is put together again from its
  -- digits to the base 64
  split_ifs at h with hone htwo hthree <;> obtain ⟨rfl, rfl⟩ := List.cons.inj h
  · have hfirst : (UInt8.ofNat c.toNat).toNat = c.toNat :=
      UInt8.toNat_ofNat_of_lt' (Nat.lt_of_le_of_lt hone (by decide))
    have hlow : UInt8.ofNat c.toNat < 0x80 := by
      rw [UInt8.lt_iff_toNat_lt, hfirst]
      exact Nat.lt_succ_of_le hone
    rw [leading, if_pos hlow, hfirst, Char.ofNat_toNat]
    rfl
  · have hfirst : (UInt8.ofNat (c.toNat / 64 % 32 + 0xc0)).toNat = c.toNat / 64 % 32 + 0xc0 := by
      rw [UInt8.toNat_ofNat']
      omega
    rw [List.singleton_append, leading_two (isContinuation_ofNat _) _ (by omega) (by omega), hfirst,
      payload_ofNat, classify_toNat c (by omega) (by omega)]
    rfl
  · have hfirst : (UInt8.ofNat (c.toNat / 4096 % 16 + 0xe0)).toNat =
        c.toNat / 4096 % 16 + 0xe0 := by
      rw [UInt8.toNat_ofNat']
      omega
    rw [List.cons_append, List.singleton_append,
      leading_three (isContinuation_ofNat _) (isContinuation_ofNat _) _ (by omega) (by omega),
      hfirst, payload_ofNat, payload_ofNat, classify_toNat c (by omega) (by omega)]
    rfl
  · have hfirst : (UInt8.ofNat (c.toNat / 262144 % 8 + 0xf0)).toNat =
        c.toNat / 262144 % 8 + 0xf0 := by
      rw [UInt8.toNat_ofNat']
      omega
    rw [List.cons_append, List.cons_append, List.singleton_append,
      leading_four (isContinuation_ofNat _) (isContinuation_ofNat _) (isContinuation_ofNat _)
        _ (by omega) (by omega), hfirst, payload_ofNat,
      payload_ofNat, payload_ofNat, classify_toNat c (by omega) (by omega)]
    rfl

/-- What can stand at the front: the bytes of a character, a lead byte with continuation bytes that
encode nothing, or a byte on its own. -/
inductive Leads (a : UInt8) : List UInt8 → Symbol × Nat → Prop where
  | char {c : Char} {more : List UInt8} (h : String.utf8EncodeChar c = a :: more)
      (rest : List UInt8) : Leads a (more ++ rest) (.char c, more.length)
  | shaped {more : List UInt8} (h : ∀ b ∈ more, isContinuation b = true) (rest : List UInt8) :
      Leads a (more ++ rest) (.shaped (a :: more), more.length)
  | stray (rest : List UInt8) : Leads a rest (.stray a, 0)

theorem leads_classify {a : UInt8} {more : List UInt8} {n low : Nat}
    (hmore : ∀ b ∈ more, isContinuation b = true)
    (hencodes : ∀ c : Char, c.toNat = n → low ≤ n → String.utf8EncodeChar c = a :: more)
    (rest : List UInt8) : Leads a (more ++ rest) (classify n low (a :: more), more.length) := by
  unfold classify
  by_cases hfits : (decide (low ≤ n) && decide n.isValidChar) = true
  · rw [if_pos hfits]
    rw [Bool.and_eq_true, decide_eq_true_iff, decide_eq_true_iff] at hfits
    exact .char (hencodes (Char.ofNat n) (toNat_ofNat_of_valid hfits.2) hfits.1) rest
  · rw [if_neg hfits]
    exact .shaped hmore rest

theorem eq_cons_of_takeWhile_take {p : UInt8 → Bool} {n : Nat} {rest more : List UInt8}
    {b : UInt8} (h : (rest.take (n + 1)).takeWhile p = b :: more) :
    ∃ rest', rest = b :: rest' ∧ p b = true ∧ (rest'.take n).takeWhile p = more := by
  cases rest with
  | nil => cases h
  | cons d rest' =>
    rw [List.take_succ_cons, List.takeWhile_cons] at h
    by_cases hd : p d = true
    · rw [if_pos hd] at h
      cases h
      exact ⟨rest', rfl, hd, rfl⟩
    · rw [if_neg hd] at h
      cases h

section Encodes

variable {a b c d : UInt8} (hb : isContinuation b = true) (hc : isContinuation c = true)
  (hd : isContinuation d = true)

theorem leads_one (ha : a < 0x80) (rest : List UInt8) :
    Leads a rest (.char (Char.ofNat a.toNat), 0) := by
  have hlow : a.toNat < 0x80 := UInt8.lt_iff_toNat_lt.mp ha
  have hchar : (Char.ofNat a.toNat).toNat = a.toNat := toNat_ofNat_of_valid (.inl (by omega))
  have hencodes : String.utf8EncodeChar (Char.ofNat a.toNat) = [a] := by
    rw [utf8EncodeChar_eq, hchar, if_pos (by omega), UInt8.ofNat_toNat]
  exact .char hencodes rest

include hb in
theorem leads_two (ha : (decide (0xc0 ≤ a) && decide (a < 0xe0)) = true) (rest : List UInt8) :
    Leads a (b :: rest) (classify (a.toNat % 32 * 64 + payload b) 0x80 [a, b], 1) := by
  obtain ⟨hlow, hhigh⟩ : 0xc0 ≤ a.toNat ∧ a.toNat < 0xe0 := between_iff.mp ha
  have hmore : ∀ x ∈ [b], isContinuation x = true := by simpa using hb
  refine leads_classify hmore (fun ch hn hleast => ?_) rest
  have hpb := payload_lt b
  have hfirst : UInt8.ofNat (ch.toNat / 64 % 32 + 0xc0) = a := by
    rw [← UInt8.toNat_inj, UInt8.toNat_ofNat']
    omega
  rw [utf8EncodeChar_eq, if_neg (by omega), if_pos (by omega), hfirst, ofNat_payload hb (by omega)]

include hb hc in
theorem leads_three (ha : (decide (0xe0 ≤ a) && decide (a < 0xf0)) = true) (rest : List UInt8) :
    Leads a (b :: c :: rest) (classify ((a.toNat % 16 * 64 + payload b) * 64 + payload c) 0x800 [a,
      b, c], 2) := by
  obtain ⟨hlow, hhigh⟩ : 0xe0 ≤ a.toNat ∧ a.toNat < 0xf0 := between_iff.mp ha
  have hmore : ∀ x ∈ [b, c], isContinuation x = true := by simp [hb, hc]
  refine leads_classify hmore (fun ch hn hleast => ?_) rest
  have hpb := payload_lt b
  have hpc := payload_lt c
  have hfirst : UInt8.ofNat (ch.toNat / 4096 % 16 + 0xe0) = a := by
    rw [← UInt8.toNat_inj, UInt8.toNat_ofNat']
    omega
  rw [utf8EncodeChar_eq, if_neg (by omega), if_neg (by omega), if_pos (by omega), hfirst,
    ofNat_payload hb (by omega), ofNat_payload hc (by omega)]

include hb hc hd in
theorem leads_four (ha : (decide (0xf0 ≤ a) && decide (a < 0xf8)) = true) (rest : List UInt8) :
    Leads a (b :: c :: d :: rest)
      (classify (((a.toNat % 8 * 64 + payload b) * 64 + payload c) * 64 + payload d) 0x10000
        [a, b, c, d], 3) := by
  obtain ⟨hlow, hhigh⟩ : 0xf0 ≤ a.toNat ∧ a.toNat < 0xf8 := between_iff.mp ha
  have hmore : ∀ x ∈ [b, c, d], isContinuation x = true := by simp [hb, hc, hd]
  refine leads_classify hmore (fun ch hn hleast => ?_) rest
  have hpb := payload_lt b
  have hpc := payload_lt c
  have hpd := payload_lt d
  have hfirst : UInt8.ofNat (ch.toNat / 262144 % 8 + 0xf0) = a := by
    rw [← UInt8.toNat_inj, UInt8.toNat_ofNat']
    omega
  rw [utf8EncodeChar_eq, if_neg (by omega), if_neg (by omega), if_neg (by omega), hfirst,
    ofNat_payload hb (by omega), ofNat_payload hc (by omega), ofNat_payload hd (by omega)]

end Encodes

theorem leads_leading (a : UInt8) (rest : List UInt8) : Leads a rest (leading a rest) := by
  unfold leading
  split
  next ha => exact leads_one ha rest
  -- a further byte is looked at only if it continues what the bytes before it began
  split
  next b more hmore =>
    obtain ⟨rest, rfl, hb, rfl⟩ := eq_cons_of_takeWhile_take hmore
    split
    next ha => exact leads_two hb ha rest
    split
    next c more hmore =>
      obtain ⟨rest, rfl, hc, rfl⟩ := eq_cons_of_takeWhile_take hmore
      split
      next ha => exact leads_three hb hc ha rest
      split
      next d more hmore =>
        obtain ⟨rest, rfl, hd, rfl⟩ := eq_cons_of_takeWhile_take hmore
        split
        next ha => exact leads_four hb hc hd ha rest
        next => exact .stray _
      next => exact .stray _
    next => exact .stray _
  next => exact .stray _

theorem leading_continuation {b : UInt8} (hb : isContinuation b = true) (rest : List UInt8) :
    leading b rest = (.stray b, 0) := by
  obtain ⟨hlow, hhigh⟩ := isContinuation_iff.mp hb
  have hwide : ¬ b < 0x80 := not_lt_of_le_toNat hlow
  have hbelow : ∀ low : UInt8, 0xc0 ≤ low.toNat → ∀ high,
      (decide (low ≤ b) && decide (b < high)) = false := by
    intro low hlead high
    rw [decide_eq_false (fun h => absurd (UInt8.le_iff_toNat_le.mp h) (by omega)), Bool.false_and]
  unfold leading
  rw [if_neg hwide]
  simp only [hbelow 0xc0 (by decide), hbelow 0xe0 (by decide), hbelow 0xf0 (by decide),
    Bool.false_eq_true, if_false]
  -- how many continuation bytes follow does not matter
  rcases (rest.take 3).takeWhile isContinuation with _ | ⟨_, _ | ⟨_, _ | _⟩⟩ <;> rfl

/-! ## 3. All bytes -/

theorem symbols_utf8EncodeChar (c : Char) (rest : List UInt8) :
    symbols (String.utf8EncodeChar c ++ rest) = .char c :: symbols rest := by
  obtain ⟨a, more, h⟩ := List.exists_cons_of_ne_nil (String.utf8EncodeChar_ne_nil (c := c))
  rw [h, List.cons_append, symbols, leading_utf8EncodeChar h, List.drop_left]

theorem symbols_continuations {more : List UInt8} (hmore : ∀ b ∈ more, isContinuation b = true)
    (rest : List UInt8) : symbols (more ++ rest) = more.map .stray ++ symbols rest := by
  induction more with
  | nil => rfl
  | cons b more ih =>
    obtain ⟨hb, hmore⟩ := List.forall_mem_cons.mp hmore
    rw [List.cons_append, symbols, leading_continuation hb, List.drop_zero, ih hmore]
    rfl

theorem charsOf_append (as bs : List Symbol) : charsOf (as ++ bs) = charsOf as ++ charsOf bs :=
  List.flatMap_append

theorem charsOf_map_stray (more : List UInt8) :
    charsOf (more.map .stray) = more.map fun _ => Symbol.replacement := by
  induction more with
  | nil => rfl
  | cons b more ih => exact congrArg (Symbol.replacement :: ·) ih

/-- A byte at which no encoding begins is replaced, and reading goes on at the next byte. -/
theorem charsOf_symbols_broken {b : UInt8} {bytes : List UInt8}
    (h : ∀ c, ¬ String.utf8EncodeChar c <+: b :: bytes) :
    charsOf (symbols (b :: bytes)) = Symbol.replacement :: charsOf (symbols bytes) := by
  rw [symbols]
  have hleads := leads_leading b bytes
  generalize leading b bytes = r at hleads ⊢
  cases hleads with
  | char hc rest => exact absurd ⟨rest, by rw [hc]; rfl⟩ (h _)
  | shaped hmore rest =>
    -- the whole sequence is one symbol here; read byte by byte, each of its continuation bytes is
    -- one
    rw [List.drop_left, symbols_continuations hmore]
    change Symbol.replacement :: (_ ++ charsOf _) = _
    rw [charsOf_append, charsOf_map_stray]
  | stray => rfl

/-- Every sequence of bytes says the text that it is decoded to. -/
theorem says_charsOf_symbols (bytes : List UInt8) : Says bytes (charsOf (symbols bytes)) := by
  induction hlength : bytes.length using Nat.strongRecOn generalizing bytes with
  | ind n ih =>
    subst hlength
    cases bytes with
    | nil =>
      rw [symbols]
      exact .done
    | cons b bytes =>
      -- either a character begins here, or the byte stands for itself and the next one is tried
      by_cases hchar : ∃ c, String.utf8EncodeChar c <+: b :: bytes
      · obtain ⟨c, rest, hrest⟩ := hchar
        have hshorter : rest.length < (b :: bytes).length := by
          have hpos := List.length_pos_iff.mpr (String.utf8EncodeChar_ne_nil (c := c))
          rw [← hrest, List.length_append]
          omega
        rw [← hrest, symbols_utf8EncodeChar]
        exact .char c (ih _ hshorter rest rfl)
      · have hnone : ∀ c, ¬ String.utf8EncodeChar c <+: b :: bytes := fun c hc => hchar ⟨c, hc⟩
        rw [charsOf_symbols_broken hnone]
        exact .broken b hnone (ih _ (Nat.lt_succ_self _) bytes rfl)

theorem says_iff {bytes : List UInt8} {cs : List Char} :
    Says bytes cs ↔ cs = (decode bytes).toList := by
  rw [decode, String.toList_ofList]
  refine ⟨fun h => ?_, fun h => h ▸ says_charsOf_symbols bytes⟩
  induction h with
  | done =>
    rw [symbols]
    rfl
  | char c _ ih =>
    rw [symbols_utf8EncodeChar, ih]
    rfl
  | broken b hnone _ ih => rw [charsOf_symbols_broken hnone, ih]

theorem says_bytes (s : String) : Says (bytes s) s.toList := by
  rw [bytes_eq]
  induction s.toList with
  | nil => exact .done
  | cons c cs ih => exact .char c ih

theorem decode_bytes (s : String) : decode (bytes s) = s :=
  String.toList_inj.mp (says_iff.mp (says_bytes s)).symm

end CypherBlocks.Text

namespace CypherBlocks.Cypher

/-! ## 4. String literals -/

/-- Reads the rest of a string literal up to the quote that ends it, and gives what is left; the
character after a backslash stands for itself. -/
def literalRest? : List Char → Option (List Char × List Char)
  | [] => none
  | '\'' :: left => some ([], left)
  | ['\\'] => none
  | '\\' :: c :: rest => (literalRest? rest).map fun r => (c :: r.1, r.2)
  | c :: rest => (literalRest? rest).map fun r => (c :: r.1, r.2)

/-- Reads a string literal from the front of a text. -/
def readLiteral? : List Char → Option (List Char × List Char)
  | '\'' :: rest => literalRest? rest
  | _ => none

theorem literalRest?_escaped (cs left : List Char) :
    literalRest? (cs.flatMap escapeChar ++ '\'' :: left) = some (cs, left) := by
  induction cs with
  | nil => rfl
  | cons c cs ih =>
    rw [List.flatMap_cons, List.append_assoc]
    by_cases hslash : c = '\\'
    · subst hslash
      simp [escapeChar, literalRest?, ih]
    · by_cases hquote : c = '\''
      · subst hquote
        simp [escapeChar, literalRest?, ih]
      · simp [escapeChar, literalRest?, hslash, hquote, ih]

theorem readLiteral?_quote (s : String) (left : List Char) :
    readLiteral? ((quote s).toList ++ left) = some (s.toList, left) := by
  rw [quote, String.toList_ofList, List.append_assoc]
  exact literalRest?_escaped s.toList left

theorem quote_injective {s t : String} (h : quote s = quote t) : s = t := by
  have hread := congrArg (fun q : String => readLiteral? (q.toList ++ [])) h
  simp only [readLiteral?_quote, Option.some.injEq, Prod.mk.injEq, and_true] at hread
  exact String.toList_inj.mp hread

/-- Bytes say exactly one text, and their literal is read back as that text from the front of
whatever it is followed by.  So bytes that are encodings of characters throughout are known by their
literals. -/
theorem quoteBytes_reads_back :
    (∀ (bytes : List UInt8) (left : List Char), ∃ text, (∀ cs, Text.Says bytes cs ↔ cs = text) ∧
      readLiteral? ((quoteBytes bytes).toList ++ left) = some (text, left)) ∧
    Set.InjOn quoteBytes (Set.range Text.bytes) := by
  refine ⟨fun bytes left => ⟨(Text.decode bytes).toList, fun cs => Text.says_iff,
    readLiteral?_quote _ left⟩, ?_⟩
  rintro _ ⟨s, rfl⟩ _ ⟨t, rfl⟩ h
  rw [quoteBytes, quoteBytes, Text.decode_bytes, Text.decode_bytes] at h
  rw [quote_injective h]

/-- A backslash and a quote, the first two bytes of a euro sign, a quote, an accented letter and a
backslash. -/
def brokenBytes : List UInt8 := [0x5c, 0x27, 0xe2, 0x82, 0x27, 0xc3, 0xa9, 0x5c]

theorem brokenBytes_read_back :
    readLiteral? ((quoteBytes brokenBytes).toList ++ "' OR".toList) =
      some ("\\'\ufffd\ufffd'é\\".toList, "' OR".toList) ∧
      quoteBytes (Text.bytes "é'") ≠ quoteBytes (Text.bytes "é\\") := by
  obtain ⟨hread, hdistinct⟩ := quoteBytes_reads_back
  obtain ⟨text, hspelt, hliteral⟩ := hread brokenBytes "' OR".toList
  have htext : Text.charsOf (Text.symbols brokenBytes) = text :=
    (hspelt _).mp (Text.says_charsOf_symbols brokenBytes)
  have hbytes : Text.bytes "é'" ≠ Text.bytes "é\\" := by decide +kernel
  refine ⟨?_, fun h => hbytes (hdistinct ⟨_, rfl⟩ ⟨_, rfl⟩ h)⟩
  rw [hliteral, ← htext]
  decide +kernel

end CypherBlocks.Cypher
