import CypherBlocks.Document.Write
import CypherBlocks.Proofs.ConfigTokens
import Mathlib.Algebra.Group.Nat.Defs

/-!
# Text in quotes

Any text can stand in quotes: what is escaped when it is written is resolved when it is read, and no
character of it ends the quotes or opens a template sequence.  The lexer cuts such a text at dollar
and percent signs, so it may be several tokens.
-/

namespace CypherBlocks.Config

open Document (escapeChar escapeText)
open Text (Symbol)

/-! ## 1. Numbered escapes -/

theorem hexValue?_hexDigit : ∀ n < 16, hexValue? (Text.hexDigit n) = some n := by decide

theorem length_hex (width n : Nat) : (Text.hex width n).length = width := by
  induction width generalizing n with
  | zero => rfl
  | succ width ih => rw [Text.hex, List.length_append, ih]; rfl

theorem hexNumber?_hex (width n : Nat) : hexNumber? (Text.hex width n) = some (n % 16 ^ width) := by
  induction width generalizing n with
  | zero => simp [Text.hex, hexNumber?, Nat.mod_one]
  | succ width ih =>
    have hdigit := hexValue?_hexDigit (n % 16) (Nat.mod_lt n (by decide))
    have hinit := ih (n / 16)
    unfold hexNumber? at hinit ⊢
    rw [Text.hex, List.foldl_append, hinit]
    simp only [List.foldl_cons, List.foldl_nil, Option.bind_eq_bind, Option.bind_some, hdigit]
    rw [Nat.pow_succ', Nat.mod_mul, Nat.add_comm, Nat.mul_comm]
    rfl

/-- The digits of a character's code point name it. -/
theorem numberedEscape?_hex {width : Nat} {c : Char} (hc : c.toNat < 16 ^ width) (cs : List Char) :
    numberedEscape? width (Text.hex width c.toNat ++ cs) = some c := by
  have htake : (Text.hex width c.toNat ++ cs).take width = Text.hex width c.toNat :=
    List.take_left' (length_hex _ _)
  have hvalid : c.toNat.isValidChar := c.valid
  simp [numberedEscape?, htake, length_hex, hexNumber?_hex, Nat.mod_eq_of_lt hc, hvalid]

theorem toNat_lt_hex (c : Char) : c.toNat < 16 ^ 8 := by
  have hvalid : c.toNat.isValidChar := c.valid
  unfold Nat.isValidChar at hvalid
  omega

/-! ## 2. Escapes are resolved -/

/-- The signs that may open a template sequence. -/
def IsSign (c : Char) : Prop := c = '$' ∨ c = '%'

/-- A character that is no sign is read back from how it is written. -/
theorem unescape_escapeChar {c : Char} (hc : ¬ IsSign c) (cs : List Char) :
    unescape (escapeChar c ++ cs) = (c :: (unescape cs).1, (unescape cs).2) := by
  unfold IsSign at hc
  rw [not_or] at hc
  unfold escapeChar
  -- the short escapes, in the order in which they are tried
  split
  · subst c; simp [unescape]
  split
  · subst c; simp [unescape]
  split
  · subst c; simp [unescape]
  split
  · subst c; simp [unescape]
  split
  · subst c; simp [unescape]
  split
  -- a character that stands for itself opens no escape and no template
  · rename_i hslash _
    rw [List.singleton_append, unescape]
    · rintro _ rfl; exact absurd rfl hc.1
    · rintro _ rfl; exact absurd rfl hc.2
    · rintro _ _ rfl; exact absurd rfl hslash
  split
  -- four hexadecimal digits, or eight
  · rename_i hsmall
    rw [List.cons_append, List.cons_append, unescape, numberedEscape?_hex (by simpa using hsmall)]
    simp [length_hex]
  · rw [List.cons_append, List.cons_append, unescape, numberedEscape?_hex (toNat_lt_hex c)]
    simp [length_hex]

theorem escapeText_open {c : Char} (hc : IsSign c) (cs : List Char) :
    escapeText (c :: '{' :: cs) = c :: c :: '{' :: escapeText cs := by
  rcases hc with rfl | rfl <;> rfl

theorem escapeText_cons {c : Char} {cs : List Char} (h : IsSign c → cs.head? ≠ some '{') :
    escapeText (c :: cs) = escapeChar c ++ escapeText cs := by
  rw [escapeText]
  · rintro cs rfl rfl
    exact h (.inl rfl) rfl
  · rintro cs rfl rfl
    exact h (.inr rfl) rfl

theorem escapeChar_sign {c : Char} (hc : IsSign c) : escapeChar c = [c] := by
  rcases hc with rfl | rfl <;> decide

/-- A character is written as itself or begins with a backslash. -/
theorem head?_escapeChar (c : Char) :
    (escapeChar c).head? = some c ∨ (escapeChar c).head? = some '\\' := by
  unfold escapeChar
  grind

theorem head?_escapeText {cs : List Char} {d : Char} (h : (escapeText cs).head? = some d) :
    d = '\\' ∨ cs.head? = some d := by
  cases cs with
  | nil => cases h
  | cons c cs =>
    by_cases hopen : IsSign c ∧ cs.head? = some '{'
    · obtain ⟨hc, hcs⟩ := hopen
      obtain ⟨cs, rfl⟩ := List.head?_eq_some_iff.mp hcs
      rw [escapeText_open hc] at h
      exact .inr h
    · rw [escapeText_cons fun hc hcs => hopen ⟨hc, hcs⟩, List.head?_append] at h
      rcases head?_escapeChar c with hhead | hhead
      · rw [hhead] at h
        exact .inr h
      · rw [hhead] at h
        cases h
        exact .inl rfl

/-- A sign of a text opens no sequence in what is written. -/
theorem escapeText_sign {c : Char} (hc : IsSign c) (cs : List Char) :
    ∃ written, escapeText (c :: cs) = c :: written ∧ written.head? ≠ some '{' := by
  by_cases hcs : cs.head? = some '{'
  · obtain ⟨cs, rfl⟩ := List.head?_eq_some_iff.mp hcs
    refine ⟨_, escapeText_open hc cs, ?_⟩
    rcases hc with rfl | rfl <;> simp
  · refine ⟨escapeText cs, by rw [escapeText_cons fun _ => hcs, escapeChar_sign hc]; rfl,
      fun h => ?_⟩
    rcases head?_escapeText h with h | h
    · cases h
    · exact hcs h

/-! ## 3. Steps of the lexer -/

section Steps

variable {outer : List LexMode} {cs rest : List Char}

theorem scanQuoted_sign {s : List Symbol} (hopen : sequenceOpening s = none)
    (h : 0 < signLength s) :
    scanQuoted outer s = oneToken .quotedText (signLength s) (.quoted :: outer) := by
  unfold scanQuoted
  rw [hopen]
  simp only [h, if_true]

theorem scanQuoted_text {s : List Symbol} (hopen : sequenceOpening s = none)
    (hsign : signLength s = 0) (h : 0 < quotedTextLength s) :
    scanQuoted outer s = oneToken .quotedText (quotedTextLength s) (.quoted :: outer) := by
  unfold scanQuoted
  rw [hopen]
  simp only [hsign, h, if_true, Nat.lt_irrefl, if_false]

/-- The tokens of a text, without its quotes. -/
structure SpellsText (cs : List Char) (ts : List Token) : Prop where
  kind : ∀ t ∈ ts, t.kind = .quotedText
  text : ts.flatMap (fun t => (tokenText t).1) = cs
  sound : ∀ t ∈ ts, (tokenText t).2 = []

theorem SpellsText.append {cs ds : List Char} {ts : List Token}
    (h : Seq (SpellsText cs) (SpellsText ds) ts) : SpellsText (cs ++ ds) ts := by
  obtain ⟨us, vs, rfl, hus, hvs⟩ := h
  exact ⟨List.forall_mem_append.mpr ⟨hus.kind,
    hvs.kind⟩, by rw [List.flatMap_append, hus.text, hvs.text],
    List.forall_mem_append.mpr ⟨hus.sound, hvs.sound⟩⟩

theorem spellsText_of_isToken {written : List Char} {ts : List Token}
    (h : IsToken .quotedText (String.ofList written) ts) (hread : unescape written = (cs, [])) :
    SpellsText cs ts := by
  obtain ⟨t, rfl, hkind, htext⟩ := h
  have htoken : tokenText t = (cs, []) := by
    rw [tokenText, if_pos hkind, htext, String.toList_ofList, hread]
  exact ⟨by simpa using hkind, by simp [htoken], by simp [htoken]⟩

/-- A character that stands for itself in quotes. -/
def IsPlainText (c : Char) : Prop := c ∉ ['\\', '"', '$', '%', '\n', '\r']

theorem quotedTextLength_plain {c : Char} (hc : IsPlainText c) (s : List Symbol) :
    quotedTextLength (.char c :: s) = 1 + quotedTextLength s := by
  simp only [IsPlainText, List.mem_cons, List.not_mem_nil, or_false, not_or] at hc
  obtain ⟨hslash, hquote, hdollar, hpercent, hfeed, hreturn⟩ := hc
  have hstands : (isTemplateSymbol (.char c) &&
      !(Symbol.is '$' (.char c) || Symbol.is '%' (.char c) || Symbol.is '"' (.char c))) = true := by
    simp [isTemplateSymbol, isLineChar, Symbol.is, hfeed, hreturn, Ne.symm hquote, Ne.symm hdollar,
      Ne.symm hpercent]
  rw [quotedTextLength, if_pos hstands]
  · rintro _ _ ⟨⟩ _
    exact hslash rfl
  · rintro ⟨⟩ _
    exact hslash rfl

theorem quotedTextLength_run {ds : List Char} (hds : ∀ d ∈ ds, IsPlainText d) (s : List Symbol) :
    quotedTextLength (ds.map .char ++ s) = ds.length + quotedTextLength s := by
  induction ds with
  | nil => simp
  | cons d ds ih =>
    obtain ⟨hd, hds⟩ := List.forall_mem_cons.mp hds
    rw [List.map_cons, List.cons_append, quotedTextLength_plain hd, ih hds, List.length_cons]
    omega

/-- A backslash takes the next character along. -/
theorem quotedTextLength_escape {c : Char} (hc : isLineChar c = false) (s : List Symbol) :
    quotedTextLength (.char '\\' :: .char c :: s) = 2 + quotedTextLength s := by
  rw [quotedTextLength, if_pos (by simp [isTemplateSymbol, hc])]

theorem quotedTextLength_stop {c : Char} (hc : IsSign c ∨ c = '"') (s : List Symbol) :
    quotedTextLength (.char c :: s) = 0 := by
  rcases hc with (rfl | rfl) | rfl <;> rfl

theorem isPlainText_hexDigit : ∀ n < 16, IsPlainText (Text.hexDigit n) := by
  unfold IsPlainText
  decide

theorem isPlainText_hex {width n : Nat} : ∀ c ∈ Text.hex width n, IsPlainText c := by
  induction width generalizing n with
  | zero => simp [Text.hex]
  | succ width ih =>
    rw [Text.hex, List.forall_mem_append]
    exact ⟨ih, by simpa using isPlainText_hexDigit (n % 16) (Nat.mod_lt n (by decide))⟩

/-- The lexer passes over a character that is no sign, however it is written. -/
theorem quotedTextLength_escapeChar {c : Char} (hc : ¬ IsSign c) (s : List Symbol) :
    quotedTextLength ((escapeChar c).map .char ++ s) =
      (escapeChar c).length + quotedTextLength s := by
  unfold IsSign at hc
  rw [not_or] at hc
  unfold escapeChar
  split
  · exact quotedTextLength_escape rfl s
  split
  · exact quotedTextLength_escape rfl s
  split
  · exact quotedTextLength_escape rfl s
  split
  · exact quotedTextLength_escape rfl s
  split
  · exact quotedTextLength_escape rfl s
  -- none of the short escapes: the character itself, or its number in one of two lengths
  rename_i hfeed hreturn _ hquote hslash
  split
  · exact quotedTextLength_plain (by simp [IsPlainText, hfeed, hreturn, hquote, hslash, hc.1, hc.2])
      s
  split
  · rw [List.map_cons, List.map_cons, List.cons_append, List.cons_append,
      quotedTextLength_escape rfl, quotedTextLength_run isPlainText_hex, List.length_cons,
      List.length_cons]
    omega
  · rw [List.map_cons, List.map_cons, List.cons_append, List.cons_append,
      quotedTextLength_escape rfl, quotedTextLength_run isPlainText_hex, List.length_cons,
      List.length_cons]
    omega

end Steps

/-! ## 4. The tokens of a text -/

section Texts

variable {outer : List LexMode} {cs rest : List Char}

/-- A stretch without signs is written character by character. -/
theorem escapeText_append (hcs : ∀ c ∈ cs, ¬ IsSign c) (ds : List Char) :
    escapeText (cs ++ ds) = cs.flatMap escapeChar ++ escapeText ds := by
  induction cs with
  | nil => rfl
  | cons c cs ih =>
    obtain ⟨hc, hcs⟩ := List.forall_mem_cons.mp hcs
    rw [List.cons_append, escapeText_cons fun h => absurd h hc, ih hcs, List.flatMap_cons,
      List.append_assoc]

theorem unescape_flatMap (hcs : ∀ c ∈ cs, ¬ IsSign c) :
    unescape (cs.flatMap escapeChar) = (cs, []) := by
  induction cs with
  | nil => rw [List.flatMap_nil, unescape]
  | cons c cs ih =>
    obtain ⟨hc, hcs⟩ := List.forall_mem_cons.mp hcs
    rw [List.flatMap_cons, unescape_escapeChar hc, ih hcs]

theorem quotedTextLength_flatMap (hcs : ∀ c ∈ cs, ¬ IsSign c) (s : List Symbol) :
    quotedTextLength ((cs.flatMap escapeChar).map .char ++ s) =
      (cs.flatMap escapeChar).length + quotedTextLength s := by
  induction cs with
  | nil => simp
  | cons c cs ih =>
    obtain ⟨hc, hcs⟩ := List.forall_mem_cons.mp hcs
    rw [List.flatMap_cons, List.map_append, List.append_assoc, quotedTextLength_escapeChar hc,
      ih hcs, List.length_append, Nat.add_assoc]

theorem sequenceOpening_cons {c : Char} {s : List Symbol}
    (h : IsSign c → s.head? ≠ some (.char '{')) : sequenceOpening (.char c :: s) = none := by
  unfold sequenceOpening
  split
  · rename_i heq
    cases heq
    exact absurd rfl (h (.inl rfl))
  · rename_i heq
    cases heq
    exact absurd rfl (h (.inl rfl))
  · rename_i heq
    cases heq
    exact absurd rfl (h (.inr rfl))
  · rename_i heq
    cases heq
    exact absurd rfl (h (.inr rfl))
  · rfl

theorem signLength_eq_zero {c : Char} (hc : ¬ IsSign c) (s : List Symbol) :
    signLength (.char c :: s) = 0 := by
  unfold signLength
  split <;> first
    | rfl
    | (rename_i heq; cases heq; exact absurd (by unfold IsSign; decide) hc)

/-- A sign stands alone unless it is doubled before a brace. -/
theorem signLength_eq_one {c : Char} (hc : IsSign c) {s : List Symbol} (hne : s ≠ [])
    (h : ∀ t, s = .char c :: t → t.head? ≠ some (.char '{')) : signLength (.char c :: s) = 1 := by
  unfold signLength
  split
  all_goals first
    | rfl
    | (rename_i heq; cases heq; exact absurd rfl (h _ rfl))
    | skip
  rename_i hdollar hpercent
  obtain ⟨x, s, rfl⟩ := List.exists_cons_of_ne_nil hne
  rcases hc with rfl | rfl
  · exact absurd rfl (hdollar x s)
  · exact absurd rfl (hpercent x s)

theorem signLength_tilde {c : Char} (hc : IsSign c) (s : List Symbol) :
    signLength (.char c :: .char c :: .char '{' :: .char '~' :: s) = 4 := by
  rcases hc with rfl | rfl <;> rfl

theorem signLength_brace {c : Char} (hc : IsSign c) {s : List Symbol}
    (h : s.head? ≠ some (.char '~')) : signLength (.char c :: .char c :: .char '{' :: s) = 3 := by
  have hs : ∀ t, s ≠ .char '~' :: t := by
    rintro t rfl
    exact h rfl
  rcases hc with rfl | rfl <;> simp [signLength]

/-- A sign that opens no sequence is a token of its own, and so is one that is doubled so that it
opens none. -/
theorem lexes_sign_text {c : Char} (hc : IsSign c) {written : List Char} (hwritten : written ≠ [])
    (hhead : written.head? ≠ some '{')
    (hnext : ∀ more, written = c :: more → more.head? ≠ some '{') :
    Lexes (.quoted :: outer) (c :: written) (SpellsText [c]) (.quoted :: outer) written := by
  have hlength : signLength ((c :: written).map .char) = 1 := by
    refine signLength_eq_one hc (by simpa using hwritten) fun t ht => ?_
    obtain ⟨d, more, rfl, hd, rfl⟩ := List.map_eq_cons_iff.mp ht
    cases hd
    simpa using hnext more rfl
  have hopen : sequenceOpening ((c :: written).map .char) = none :=
    sequenceOpening_cons fun _ => by simpa using hhead
  refine (lexes_of_scanStep [c] .quotedText (by simp) ?_ rfl).imp fun ts hts =>
    spellsText_of_isToken hts ?_
  · change scanQuoted outer ((c :: written).map .char) = _
    rw [scanQuoted_sign hopen (by omega), hlength]
    rfl
  · rcases hc with rfl | rfl <;> simp [unescape]

/-- A doubled sign and its brace are a token of their own, together with a tilde if there is one. -/
theorem lexes_doubled {c : Char} (hc : IsSign c) {written : List Char} {tilde : List Char}
    (htilde : tilde = ['~'] ∨ tilde = [] ∧ written.head? ≠ some '~') :
    Lexes (.quoted :: outer) (c :: c :: '{' :: (tilde ++ written)) (SpellsText (c :: '{' :: tilde))
      (.quoted :: outer) written := by
  have hlength : signLength ((c :: c :: '{' :: (tilde ++ written)).map .char) =
      (c :: c :: '{' :: tilde).length := by
    rcases htilde with rfl | ⟨rfl, hwritten⟩
    · exact signLength_tilde hc _
    · exact signLength_brace hc (by simpa using hwritten)
  have hopen : sequenceOpening ((c :: c :: '{' :: (tilde ++ written)).map .char) = none := by
    refine sequenceOpening_cons fun _ => ?_
    rcases hc with rfl | rfl <;> simp
  have hread : unescape (c :: c :: '{' :: tilde) = (c :: '{' :: tilde, []) := by
    rcases hc with rfl | rfl <;> rcases htilde with rfl | ⟨rfl, -⟩ <;> simp [unescape]
  refine (lexes_of_scanStep (c :: c :: '{' :: tilde) .quotedText (by simp) ?_ rfl).imp fun ts hts =>
    spellsText_of_isToken hts hread
  change scanQuoted outer ((c :: c :: '{' :: (tilde ++ written)).map .char) = _
  rw [scanQuoted_sign hopen (by rw [hlength]; exact Nat.succ_pos _), hlength]

/-- A stretch without signs is a token, up to the next sign or the end of the text. -/
theorem lexes_stretch (hne : cs ≠ []) (hcs : ∀ c ∈ cs, ¬ IsSign c) {written : List Char}
    {d : Char} (hwritten : written.head? = some d) (hd : IsSign d ∨ d = '"') :
    Lexes (.quoted :: outer) (cs.flatMap escapeChar ++ written) (SpellsText cs)
      (.quoted :: outer) written := by
  obtain ⟨more, rfl⟩ := List.head?_eq_some_iff.mp hwritten
  have hlength : quotedTextLength ((cs.flatMap escapeChar ++ d :: more).map .char) =
      (cs.flatMap escapeChar).length := by
    rw [List.map_append, quotedTextLength_flatMap hcs, List.map_cons,
      quotedTextLength_stop hd, Nat.add_zero]
  -- what is written begins with a backslash or the first character itself, so with no sign
  obtain ⟨e, tail, heq, he⟩ : ∃ e tail, cs.flatMap escapeChar = e :: tail ∧ ¬ IsSign e := by
    obtain ⟨c, cs, rfl⟩ := List.exists_cons_of_ne_nil hne
    rw [List.flatMap_cons]
    rcases head?_escapeChar c with h | h
    · obtain ⟨tail, htail⟩ := List.head?_eq_some_iff.mp h
      exact ⟨c, tail ++ cs.flatMap escapeChar, by rw [htail]; rfl, hcs c List.mem_cons_self⟩
    · obtain ⟨tail, htail⟩ := List.head?_eq_some_iff.mp h
      exact ⟨'\\', tail ++ cs.flatMap escapeChar, by rw [htail]; rfl, by unfold IsSign; decide⟩
  refine (lexes_of_scanStep (cs.flatMap escapeChar) .quotedText (by simp [heq]) ?_ rfl).imp
    fun ts hts =>
    spellsText_of_isToken hts (unescape_flatMap hcs)
  have hopen : sequenceOpening ((cs.flatMap escapeChar ++ d :: more).map .char) = none := by
    rw [heq]
    exact sequenceOpening_cons fun h => absurd h he
  have hsign : signLength ((cs.flatMap escapeChar ++ d :: more).map .char) = 0 := by
    rw [heq]
    exact signLength_eq_zero he _
  have hpos : 0 < quotedTextLength ((cs.flatMap escapeChar ++ d :: more).map .char) := by
    rw [hlength, heq]
    exact Nat.succ_pos _
  change scanQuoted outer ((cs.flatMap escapeChar ++ d :: more).map .char) = _
  rw [scanQuoted_text hopen hsign hpos, hlength]

/-- How a text goes on after a stretch: with a sign, or it is over. -/
theorem head?_escapeText_append {cs : List Char} (h : ∀ c ∈ cs.head?, IsSign c) (rest : List Char) :
    ∃ d, (escapeText cs ++ '"' :: rest).head? = some d ∧ (IsSign d ∨ d = '"') := by
  cases cs with
  | nil => exact ⟨'"', rfl, .inr rfl⟩
  | cons c cs =>
    have hc := h c rfl
    obtain ⟨written, hwritten, -⟩ := escapeText_sign hc cs
    exact ⟨c, by rw [hwritten]; rfl, .inl hc⟩

theorem head?_escapeText_append_ne (cs rest : List Char) {d : Char} (hslash : d ≠ '\\')
    (hquote : d ≠ '"') (h : cs.head? ≠ some d) : (escapeText cs ++ '"' :: rest).head? ≠ some d := by
  intro heq
  cases hcs : escapeText cs with
  | nil =>
    rw [hcs] at heq
    cases heq
    exact hquote rfl
  | cons e written =>
    rw [hcs] at heq
    cases heq
    have hhead : (escapeText cs).head? = some d := by rw [hcs]; rfl
    rcases head?_escapeText hhead with he | he
    · exact hslash he
    · exact h he

/-- A text begins with a stretch without signs, which may be empty. -/
theorem exists_stretch (cs : List Char) :
    ∃ stretch tail, cs = stretch ++ tail ∧ (∀ c ∈ stretch, ¬ IsSign c) ∧ ∀ c ∈ tail.head?,
      IsSign c := by
  induction cs with
  | nil => exact ⟨[], [], rfl, by simp, by simp⟩
  | cons c cs ih =>
    by_cases hc : IsSign c
    · exact ⟨[], c :: cs, rfl, by simp, by simpa using hc⟩
    · obtain ⟨stretch, tail, rfl, hstretch, htail⟩ := ih
      exact ⟨c :: stretch, tail, rfl, List.forall_mem_cons.mpr ⟨hc, hstretch⟩, htail⟩

/-- A sign that is not before a brace is read as itself. -/
theorem lexes_lone_sign {c : Char} (hc : IsSign c) (hcs : cs.head? ≠ some '{') :
    Lexes (.quoted :: outer) (c :: (escapeText cs ++ '"' :: rest)) (SpellsText [c])
      (.quoted :: outer)
      (escapeText cs ++ '"' :: rest) := by
  have hhead : (escapeText cs ++ '"' :: rest).head? ≠ some '{' :=
    head?_escapeText_append_ne cs rest (by decide) (by decide) hcs
  refine lexes_sign_text hc (by simp) hhead fun more hmore => ?_
  cases cs with
  | nil =>
    cases hmore
    exact absurd hc (by unfold IsSign; decide)
  | cons d cs =>
    -- a second sign of the text is not before a brace either, or it is doubled
    have hd : d = c := by
      by_cases hd : d = c
      · exact hd
      · have hslash : c ≠ '\\' := by rcases hc with rfl | rfl <;> decide
        have hquote : c ≠ '"' := by rcases hc with rfl | rfl <;> decide
        have hne := head?_escapeText_append_ne (d :: cs) rest hslash hquote (by simpa using hd)
        exact absurd (by rw [hmore]; rfl) hne
    subst hd
    obtain ⟨written, hwritten, hne⟩ := escapeText_sign hc cs
    rw [hwritten, List.cons_append, List.cons.injEq] at hmore
    rw [← hmore.2]
    cases written with
    | nil => simp
    | cons e written => simpa using hne

/-- What is written for a text is read as that text, up to the closing quote. -/
theorem lexes_escapeText (cs rest : List Char) :
    Lexes (.quoted :: outer) (escapeText cs ++ '"' :: rest) (SpellsText cs) (.quoted :: outer)
      ('"' :: rest) := by
  -- Each token takes at least one character of the text along.
  induction hn : cs.length using Nat.strongRecOn generalizing cs with
  | ind n ih =>
    subst hn
    obtain ⟨stretch, tail, rfl, hstretch, htail⟩ := exists_stretch cs
    by_cases hne : stretch = []
    · subst hne
      rw [List.nil_append] at ih ⊢
      cases tail with
      | nil => exact .nothing ⟨by simp, rfl, by simp⟩
      | cons c cs =>
        have hc : IsSign c := htail c rfl
        by_cases hbrace : cs.head? = some '{'
        · obtain ⟨cs, rfl⟩ := List.head?_eq_some_iff.mp hbrace
          rw [escapeText_open hc]
          by_cases htilde : cs.head? = some '~'
          · obtain ⟨cs, rfl⟩ := List.head?_eq_some_iff.mp htilde
            have hrest := ih cs.length (by simp only [List.length_cons]; omega) cs rfl
            exact ((lexes_doubled hc (.inl rfl)).trans hrest).imp fun ts hts => .append hts
          · have hhead : (escapeText cs ++ '"' :: rest).head? ≠ some '~' :=
              head?_escapeText_append_ne cs rest (by decide) (by decide) htilde
            have hrest := ih cs.length (by simp only [List.length_cons]; omega) cs rfl
            exact ((lexes_doubled hc (.inr ⟨rfl, hhead⟩)).trans hrest).imp fun ts hts => .append hts
        · rw [escapeText_cons fun _ => hbrace, escapeChar_sign hc]
          exact ((lexes_lone_sign hc hbrace).trans (ih cs.length (by simp) cs rfl)).imp
            fun ts hts => .append hts
    · have hpos : 0 < stretch.length := List.length_pos_iff.mpr hne
      obtain ⟨d, hhead, hd⟩ := head?_escapeText_append htail rest
      rw [escapeText_append hstretch, List.append_assoc]
      have hrest := ih tail.length (by rw [List.length_append]; omega) tail rfl
      exact ((lexes_stretch hne hstretch hhead hd).trans hrest).imp fun ts hts => .append hts

/-- The tokens of a text in quotes. -/
def SpellsQuoted (s : String) (ts : List Token) : Prop :=
  ∃ first body last, ts = first :: (body ++ [last]) ∧ first.kind = .openQuote ∧
    SpellsText s.toList body ∧ last.kind = .closeQuote

theorem lexes_textLiteral {braces : Option Nat} {s : String} (hs : Text.normalize s = s) :
    Lexes (.code braces :: outer) ((Document.textLiteral s).toList ++ rest) (SpellsQuoted s)
      (.code braces :: outer) rest := by
  have htext : (Document.textLiteral s).toList ++ rest =
      '"' :: (escapeText s.toList ++ '"' :: rest) := by
    simp [Document.textLiteral, hs]
  have hclose : Lexes (.quoted :: .code braces :: outer) ('"' :: rest) (IsToken .closeQuote "\"")
      (.code braces :: outer) rest :=
    lexes_of_scanStep ['"'] .closeQuote (by simp) rfl rfl
  rw [htext]
  refine (lexes_openQuote.trans ((lexes_escapeText _ rest).trans hclose)).imp fun ts hts => ?_
  obtain ⟨_, _, rfl, ⟨first, rfl, hfirst, -⟩, body, _, rfl, hbody, last, rfl, hlast, -⟩ := hts
  exact ⟨first, body, last, rfl, hfirst, hbody, hlast⟩

end Texts

end CypherBlocks.Config
