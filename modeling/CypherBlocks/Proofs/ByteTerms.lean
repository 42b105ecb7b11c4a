import CypherBlocks.Cypher.Condition
import CypherBlocks.Proofs.Literals
import CypherBlocks.Proofs.Texts

/-!
# Terms given as bytes

What becomes of a term can be told from its bytes, whether or not they are characters throughout.
The blank characters around it are those whose encodings stand at either end, nothing is left just
if there is nothing else, and a sign of a regular expression is a single byte.
-/

namespace CypherBlocks.Text

/-! ## 1. Bytes side by side -/

/-- The bytes after the first one of an encoding are continuation bytes, and the first is none. -/
theorem isContinuation_utf8EncodeChar (c : Char) : ∃ a more, String.utf8EncodeChar c = a :: more ∧
    isContinuation a = false ∧ ∀ b ∈ more, isContinuation b = true := by
  have hfirst : ∀ n, n < 0x80 ∨ 0xc0 ≤ n ∧ n < 0x100 → isContinuation (UInt8.ofNat n) = false := by
    intro n hn
    rw [Bool.eq_false_iff, ne_eq, isContinuation_iff, UInt8.toNat_ofNat']
    omega
  have hmore : ∀ ns : List Nat, ∀ b ∈ ns.map fun n => UInt8.ofNat (n % 64 + 0x80),
      isContinuation b = true := fun ns => List.forall_mem_map.mpr fun n _ => isContinuation_ofNat n
  rw [utf8EncodeChar_eq]
  split_ifs with hone htwo hthree
  · exact ⟨_, _, rfl, hfirst _ (by omega), hmore []⟩
  · exact ⟨_, _, rfl, hfirst _ (by omega), hmore [_]⟩
  · exact ⟨_, _, rfl, hfirst _ (by omega), hmore [_, _]⟩
  · exact ⟨_, _, rfl, hfirst _ (by omega), hmore [_, _, _]⟩

/-- Bytes that do not go on with what stands before them. -/
def BeginsAnew (bytes : List UInt8) : Prop := ∀ b ∈ bytes.head?, isContinuation b = false

/-- An encoding that begins in front of bytes that begin anew ends in front of them. -/
theorem not_prefix_append {b : UInt8} {bytes more : List UInt8}
    (h : ∀ c, ¬String.utf8EncodeChar c <+: b :: bytes) (hmore : BeginsAnew more) (c : Char) :
    ¬String.utf8EncodeChar c <+: b :: (bytes ++ more) := by
  rintro ⟨rest, hrest⟩
  rw [← List.cons_append] at hrest
  rcases List.append_eq_append_iff.mp hrest with ⟨as, has, -⟩ | ⟨bs, hbs, hmoreEq⟩
  · exact h c ⟨as, has.symm⟩
  · obtain ⟨a, continued, hc, -, hcontinued⟩ := isContinuation_utf8EncodeChar c
    cases bs with
    | nil => exact h c ⟨[], by rw [hbs, List.append_nil, List.append_nil]⟩
    | cons x bs =>
      have hx : isContinuation x = false := hmore x (by rw [hmoreEq]; rfl)
      rw [hc, List.cons_append] at hbs
      obtain ⟨-, rfl⟩ := List.cons.inj hbs
      rw [hcontinued x (by simp)] at hx
      cases hx

theorem Says.append {bytes more : List UInt8} {cs ds : List Char} (h : Says bytes cs)
    (hmore : BeginsAnew more) (h' : Says more ds) : Says (bytes ++ more) (cs ++ ds) := by
  induction h with
  | done => exact h'
  | char c _ ih =>
    rw [List.append_assoc]
    exact .char c ih
  | broken b hnone _ ih => exact .broken b (not_prefix_append hnone hmore) ih

theorem Says.eq_nil_iff {bytes : List UInt8} {cs : List Char} (h : Says bytes cs) :
    cs = [] ↔ bytes = [] := by
  cases h with
  | done => simp
  | char c _ => simp [String.utf8EncodeChar_ne_nil]
  | broken b => simp

/-- The first character that bytes say is encoded at their front. -/
theorem Says.encodes_head {bytes : List UInt8} {c : Char} {cs : List Char}
    (h : Says bytes (c :: cs)) (hc : c ≠ Symbol.replacement) :
    String.utf8EncodeChar c <+: bytes := by
  cases h with
  | char _ rest => exact List.prefix_append _ _
  | broken => exact absurd rfl hc

/-- The last character that bytes say is encoded at their end. -/
theorem Says.encodes_last {bytes : List UInt8} {c : Char} {cs : List Char}
    (h : Says bytes (cs ++ [c])) (hc : c ≠ Symbol.replacement) :
    String.utf8EncodeChar c <:+ bytes := by
  generalize hds : cs ++ [c] = ds at h
  induction h generalizing cs with
  | done => simp at hds
  | char d rest ih =>
    cases cs with
    | nil =>
      obtain ⟨rfl, rfl⟩ := List.cons.inj hds
      exact ⟨[], by simp [rest.eq_nil_iff.mp rfl]⟩
    | cons e cs => exact (ih (List.cons.inj hds).2).trans (List.suffix_append _ _)
  | broken b _ rest ih =>
    cases cs with
    | nil => exact absurd (List.cons.inj hds).1 hc
    | cons e cs => exact (ih (List.cons.inj hds).2).trans (List.suffix_cons _ _)

/-- Every byte of a longer encoding has its highest bit set. -/
theorem le_toNat_of_mem_utf8EncodeChar {d : Char} (hd : 0x80 ≤ d.toNat) {b : UInt8}
    (hb : b ∈ String.utf8EncodeChar d) : 0x80 ≤ b.toNat := by
  rw [utf8EncodeChar_eq, if_neg (by omega)] at hb
  split_ifs at hb <;> simp only [List.mem_cons, List.not_mem_nil, or_false] at hb
  · rcases hb with rfl | rfl <;> rw [UInt8.toNat_ofNat'] <;> omega
  · rcases hb with rfl | rfl | rfl <;> rw [UInt8.toNat_ofNat'] <;> omega
  · rcases hb with rfl | rfl | rfl | rfl <;> rw [UInt8.toNat_ofNat'] <;> omega

theorem toNat_ofNat_of_ascii {c : Char} (hc : c.toNat < 0x80) :
    (UInt8.ofNat c.toNat).toNat = c.toNat :=
  UInt8.toNat_ofNat_of_lt' (Nat.lt_trans hc (by decide))

theorem utf8EncodeChar_of_ascii {c : Char} (hc : c.toNat < 0x80) :
    String.utf8EncodeChar c = [UInt8.ofNat c.toNat] := by
  rw [utf8EncodeChar_eq, if_pos (Nat.le_of_lt_succ hc)]

theorem ascii_mem_utf8EncodeChar_iff {c d : Char} (hc : c.toNat < 0x80) :
    UInt8.ofNat c.toNat ∈ String.utf8EncodeChar d ↔ c = d := by
  constructor
  · intro hmem
    by_cases hd : d.toNat < 0x80
    · rw [utf8EncodeChar_of_ascii hd, List.mem_singleton, ← UInt8.toNat_inj,
        toNat_ofNat_of_ascii hc, toNat_ofNat_of_ascii hd] at hmem
      exact Char.toNat_inj.mp hmem
    · have hlow := le_toNat_of_mem_utf8EncodeChar (Nat.le_of_not_lt hd) hmem
      rw [toNat_ofNat_of_ascii hc] at hlow
      omega
  · rintro rfl
    rw [utf8EncodeChar_of_ascii hc]
    exact List.mem_singleton_self _

/-- A character of ASCII is said just where its byte stands. -/
theorem Says.mem_ascii_iff {bytes : List UInt8} {cs : List Char} (h : Says bytes cs) {c : Char}
    (hc : c.toNat < 0x80) : c ∈ cs ↔ UInt8.ofNat c.toNat ∈ bytes := by
  induction h with
  | done => simp
  | char d _ ih => rw [List.mem_cons, List.mem_append, ascii_mem_utf8EncodeChar_iff hc, ih]
  | broken b hnone _ ih =>
    have hreplaced : c ≠ Symbol.replacement := by
      rintro rfl
      exact absurd hc (by decide)
    have hb : UInt8.ofNat c.toNat ≠ b := by
      rintro rfl
      refine hnone c ?_
      rw [utf8EncodeChar_of_ascii hc]
      exact List.prefix_append [_] _
    rw [List.mem_cons, List.mem_cons, ih]
    simp only [hreplaced, hb, false_or]

/-! ## 2. Trimmed bytes -/

/-- The encodings of blank characters one after another. -/
def IsBlanks (bytes : List UInt8) : Prop :=
  ∃ cs : List Char, (∀ c ∈ cs, isBlankChar c = true) ∧ bytes = cs.flatMap String.utf8EncodeChar

/-- Bytes without the blank characters at either end. -/
structure Trims (bytes trimmed : List UInt8) : Prop where
  around : ∃ front back, IsBlanks front ∧ IsBlanks back ∧ bytes = front ++ trimmed ++ back
  front : ∀ c, isBlankChar c = true → ¬String.utf8EncodeChar c <+: trimmed
  back : ∀ c, isBlankChar c = true → ¬String.utf8EncodeChar c <:+ trimmed

theorem isBlanks_nil : IsBlanks [] := ⟨[], by simp, rfl⟩

theorem IsBlanks.cons {c : Char} (hc : isBlankChar c = true) {bytes : List UInt8}
    (h : IsBlanks bytes) : IsBlanks (String.utf8EncodeChar c ++ bytes) := by
  obtain ⟨cs, hcs, rfl⟩ := h
  exact ⟨c :: cs, List.forall_mem_cons.mpr ⟨hc, hcs⟩, rfl⟩

theorem IsBlanks.concat {c : Char} (hc : isBlankChar c = true) {bytes : List UInt8}
    (h : IsBlanks bytes) : IsBlanks (bytes ++ String.utf8EncodeChar c) := by
  obtain ⟨cs, hcs, rfl⟩ := h
  refine ⟨cs ++ [c], List.forall_mem_append.mpr ⟨hcs, by simpa using hc⟩, ?_⟩
  simp

theorem exists_front (bytes : List UInt8) : ∃ front rest, IsBlanks front ∧ bytes = front ++ rest ∧
    ∀ c, isBlankChar c = true → ¬String.utf8EncodeChar c <+: rest := by
  induction hlength : bytes.length using Nat.strongRecOn generalizing bytes with
  | ind n ih =>
    by_cases hblank : ∃ c, isBlankChar c = true ∧ String.utf8EncodeChar c <+: bytes
    · obtain ⟨c, hc, rest, rfl⟩ := hblank
      have hpos := List.length_pos_iff.mpr (String.utf8EncodeChar_ne_nil (c := c))
      rw [List.length_append] at hlength
      obtain ⟨front, rest, hfront, rfl, hrest⟩ := ih _ (by omega) rest rfl
      exact ⟨_, rest, hfront.cons hc, by rw [List.append_assoc], hrest⟩
    · exact ⟨[], bytes, isBlanks_nil, rfl, fun c hc hstart => hblank ⟨c, hc, hstart⟩⟩

theorem exists_back (bytes : List UInt8) : ∃ rest back, IsBlanks back ∧ bytes = rest ++ back ∧
    ∀ c, isBlankChar c = true → ¬String.utf8EncodeChar c <:+ rest := by
  induction hlength : bytes.length using Nat.strongRecOn generalizing bytes with
  | ind n ih =>
    by_cases hblank : ∃ c, isBlankChar c = true ∧ String.utf8EncodeChar c <:+ bytes
    · obtain ⟨c, hc, rest, rfl⟩ := hblank
      have hpos := List.length_pos_iff.mpr (String.utf8EncodeChar_ne_nil (c := c))
      rw [List.length_append] at hlength
      obtain ⟨rest, back, hback, rfl, hrest⟩ := ih _ (by omega) rest rfl
      exact ⟨rest, _, hback.concat hc, by rw [List.append_assoc], hrest⟩
    · exact ⟨bytes, [], isBlanks_nil, by rw [List.append_nil], fun c hc hsuffix =>
        hblank ⟨c, hc, hsuffix⟩⟩

theorem exists_trims (bytes : List UInt8) : ∃ trimmed, Trims bytes trimmed := by
  obtain ⟨front, rest, hfront, rfl, hrest⟩ := exists_front bytes
  obtain ⟨trimmed, back, hback, rfl, htrimmed⟩ := exists_back rest
  refine ⟨trimmed, ⟨front, back, hfront, hback, by rw [List.append_assoc]⟩, fun c hc hstart => ?_,
    htrimmed⟩
  exact hrest c hc (hstart.trans (List.prefix_append _ _))

theorem IsBlanks.beginsAnew {bytes : List UInt8} (h : IsBlanks bytes) : BeginsAnew bytes := by
  obtain ⟨cs, -, rfl⟩ := h
  cases cs with
  | nil => simp [BeginsAnew]
  | cons c cs =>
    obtain ⟨a, more, hc, ha, -⟩ := isContinuation_utf8EncodeChar c
    intro b hb
    rw [List.flatMap_cons, hc] at hb
    cases hb
    exact ha

theorem says_flatMap (cs : List Char) (bytes : List UInt8) {ds : List Char} (h : Says bytes ds) :
    Says (cs.flatMap String.utf8EncodeChar ++ bytes) (cs ++ ds) := by
  induction cs with
  | nil => exact h
  | cons c cs ih =>
    rw [List.flatMap_cons, List.append_assoc]
    exact .char c ih

/-- The text without blanks around it, where these can be seen. -/
theorem trim_blanks {s : String} {front middle back : List Char}
    (hs : s.toList = front ++ middle ++ back) (hfront : ∀ c ∈ front, isBlankChar c = true)
    (hback : ∀ c ∈ back, isBlankChar c = true)
    (hfirst : ∀ c ∈ middle.head?, isBlankChar c = false)
    (hlast : ∀ c ∈ middle.getLast?, isBlankChar c = false) : (trim s).toList = middle := by
  rw [toList_trim, hs, List.append_assoc, List.dropWhile_append_of_pos hfront]
  by_cases hnone : middle = []
  · rw [hnone, List.nil_append, List.dropWhile_eq_nil_iff.mpr hback]
    rfl
  · obtain ⟨c, more, rfl⟩ := List.exists_cons_of_ne_nil hnone
    rw [List.cons_append, List.dropWhile_cons_of_neg (by simp [hfirst c rfl]), ← List.cons_append,
      List.reverse_append, List.dropWhile_append_of_pos (by simpa using hback)]
    obtain ⟨most, d, hd⟩ := (List.eq_nil_or_concat (c :: more)).resolve_left hnone
    rw [hd, List.concat_eq_append] at hlast ⊢
    rw [List.reverse_append, List.reverse_singleton, List.singleton_append,
      List.dropWhile_cons_of_neg (by simp [hlast d (by simp)])]
    simp

/-- Trimming the text that bytes say gives what the trimmed bytes say. -/
theorem Trims.decode_eq {bytes trimmed : List UInt8} (h : Trims bytes trimmed) :
    decode trimmed = trim (decode bytes) := by
  obtain ⟨⟨front, back, ⟨cs, hcs, rfl⟩, hback, rfl⟩, hfirst, hlast⟩ := h
  have hanew := hback.beginsAnew
  obtain ⟨ds, hds, rfl⟩ := hback
  have hmiddle := says_iff.mpr (rfl : (decode trimmed).toList = (decode trimmed).toList)
  have hds' : Says (ds.flatMap String.utf8EncodeChar) ds := by
    simpa using says_flatMap ds [] .done
  have htext := says_flatMap cs _ (hmiddle.append hanew hds')
  rw [← List.append_assoc, ← List.append_assoc, says_iff] at htext
  have hplain : isBlankChar Symbol.replacement = false := by decide
  refine String.toList_inj.mp (trim_blanks htext.symm hcs hds (fun c hc => ?_) fun c hc => ?_).symm
  · rw [Bool.eq_false_iff]
    intro hblank
    obtain ⟨rest, hrest⟩ := List.head?_eq_some_iff.mp hc
    rw [hrest] at hmiddle
    refine hfirst c hblank (hmiddle.encodes_head ?_)
    rintro rfl
    cases hblank.symm.trans hplain
  · rw [Bool.eq_false_iff]
    intro hblank
    obtain ⟨rest, hrest⟩ := List.getLast?_eq_some_iff.mp hc
    rw [hrest] at hmiddle
    refine hlast c hblank (hmiddle.encodes_last ?_)
    rintro rfl
    cases hblank.symm.trans hplain

theorem decode_eq_empty_iff {bytes : List UInt8} : (decode bytes).isEmpty = true ↔ bytes = [] := by
  have htext := says_iff.mpr (rfl : (decode bytes).toList = (decode bytes).toList)
  rw [String.isEmpty_iff, ← String.toList_eq_nil_iff, htext.eq_nil_iff]

end CypherBlocks.Text

namespace CypherBlocks.Cypher

/-! ## 3. Usable terms -/

/-- The terms that are not blank, without the blank characters around them, in their order. -/
inductive UsableBytes : List (List UInt8) → List (List UInt8) → Prop where
  | nil : UsableBytes [] []
  | blank {term : List UInt8} {terms others : List (List UInt8)} (trims : Text.Trims term [])
      (rest : UsableBytes terms others) : UsableBytes (term :: terms) others
  | kept {term trimmed : List UInt8} {terms others : List (List UInt8)}
      (trims : Text.Trims term trimmed) (ne_nil : trimmed ≠ []) (rest : UsableBytes terms others) :
      UsableBytes (term :: terms) (trimmed :: others)

theorem exists_usableBytes (terms : List (List UInt8)) : ∃ kept, UsableBytes terms kept := by
  induction terms with
  | nil => exact ⟨[], .nil⟩
  | cons term terms ih =>
    obtain ⟨kept, hkept⟩ := ih
    obtain ⟨trimmed, htrims⟩ := Text.exists_trims term
    by_cases hblank : trimmed = []
    · exact ⟨kept, .blank (hblank ▸ htrims) hkept⟩
    · exact ⟨trimmed :: kept, .kept htrims hblank hkept⟩

theorem UsableBytes.decode_eq {terms kept : List (List UInt8)} (h : UsableBytes terms kept) :
    usable (terms.map Text.decode) = kept.map Text.decode := by
  unfold usable
  induction h with
  | nil => rfl
  | blank htrims _ ih =>
    have hempty : (Text.trim (Text.decode _)).isEmpty = true :=
      htrims.decode_eq ▸ Text.decode_eq_empty_iff.mpr rfl
    rw [List.map_cons, List.map_cons, List.filter_cons_of_neg (by simp [hempty]), ih]
  | kept htrims hne _ ih =>
    have hfull : (Text.decode _).isEmpty = false :=
      Bool.eq_false_iff.mpr fun h => hne (Text.decode_eq_empty_iff.mp h)
    rw [List.map_cons, List.map_cons, ← htrims.decode_eq, List.filter_cons_of_pos (by simp [hfull]),
      ih, List.map_cons]

/-- Whether one of the bytes is a sign of a regular expression. -/
def HasSign (bytes : List UInt8) : Prop := ∃ c ∈ metaCharacters, UInt8.ofNat c.toNat ∈ bytes

theorem isPattern_decode_iff {bytes : List UInt8} :
    isPattern (Text.decode bytes) = true ↔ HasSign bytes := by
  have hascii : ∀ c ∈ metaCharacters, c.toNat < 0x80 := by simp [metaCharacters]
  have htext := Text.says_iff.mpr (rfl : (Text.decode bytes).toList = (Text.decode bytes).toList)
  rw [isPattern, List.any_eq_true]
  constructor
  · rintro ⟨c, hc, hsign⟩
    have hsign : c ∈ metaCharacters := of_decide_eq_true hsign
    exact ⟨c, hsign, (htext.mem_ascii_iff (hascii c hsign)).mp hc⟩
  · rintro ⟨c, hsign, hc⟩
    exact ⟨c, (htext.mem_ascii_iff (hascii c hsign)).mpr hc, decide_eq_true hsign⟩

end CypherBlocks.Cypher
