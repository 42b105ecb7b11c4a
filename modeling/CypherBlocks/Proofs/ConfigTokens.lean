import CypherBlocks.Config.Parser.Body
import CypherBlocks.Proofs.Texts

/-!
# Tokens of a written text

`Lexes` says what the lexer makes of the front of a text: some tokens, and then whatever it makes of
the rest.  Each lemma is about one kind of token and says what may stand after it; longer texts are
put together with `Lexes.trans`.  Where tokens stand does not matter.
-/

namespace CypherBlocks.Config

open Text (Symbol)

/-! ## 1. The front of a text -/

/-- From a text the lexer makes tokens of which `P` holds and none of which is wrong in itself; then
it goes on with the rest. -/
def Lexes (modes : List LexMode) (cs : List Char) (P : List Token → Prop) (modes' : List LexMode)
    (rest : List Char) : Prop :=
  ∀ p, ∃ ts q, tokensFrom modes p (cs.map .char) = ts ++ tokensFrom modes' q (rest.map .char) ∧
    P ts ∧ ∀ t ∈ ts, tokenProblem? t = none

/-- Some tokens and then others. -/
def Seq (P Q : List Token → Prop) (ts : List Token) : Prop := ∃ us vs, ts = us ++ vs ∧ P us ∧ Q vs

/-- A single token. -/
def IsToken (kind : TokenKind) (text : String) (ts : List Token) : Prop :=
  ∃ t, ts = [t] ∧ t.kind = kind ∧ t.text = text

section Fronts

variable {modes modes' modes'' : List LexMode} {cs mid rest : List Char} {P Q : List Token → Prop}

theorem Lexes.nothing (h : P []) : Lexes modes cs P modes cs := fun p => ⟨[], p, rfl, h, by simp⟩

theorem Lexes.imp (h : Lexes modes cs P modes' rest) (hPQ : ∀ ts, P ts → Q ts) :
    Lexes modes cs Q modes' rest := by
  intro p
  obtain ⟨ts, q, heq, hP, hok⟩ := h p
  exact ⟨ts, q, heq, hPQ ts hP, hok⟩

theorem Lexes.trans (h : Lexes modes cs P modes' mid) (h' : Lexes modes' mid Q modes'' rest) :
    Lexes modes cs (Seq P Q) modes'' rest := by
  intro p
  obtain ⟨us, q, hus, hP, hok⟩ := h p
  obtain ⟨vs, r, hvs, hQ, hok'⟩ := h' q
  refine ⟨us ++ vs, r, ?_, ⟨us, vs, rfl, hP, hQ⟩, List.forall_mem_append.mpr ⟨hok, hok'⟩⟩
  rw [hus, hvs, List.append_assoc]

/-- Blanks make no token. -/
theorem Lexes.trans_nothing (h : Lexes modes cs (· = []) modes' mid)
    (h' : Lexes modes' mid Q modes'' rest) : Lexes modes cs Q modes'' rest := by
  refine (h.trans h').imp fun ts hts => ?_
  obtain ⟨us, vs, rfl, rfl, hQ⟩ := hts
  exact hQ

theorem charsOf_map_char (cs : List Char) : Text.charsOf (cs.map .char) = cs := by
  induction cs with
  | nil => rfl
  | cons c rest ih => exact congrArg (c :: ·) ih

/-- One step of the lexer that finds a token. -/
theorem lexes_of_scanStep (cs : List Char) (kind : TokenKind) (hne : cs ≠ [])
    (hscan : scanStep modes ((cs ++ rest).map .char) = oneToken kind cs.length modes')
    (hok : tokenProblem? ⟨kind, "", ⟨Position.start, Position.start⟩⟩ = none) :
    Lexes modes (cs ++ rest) (IsToken kind (String.ofList cs)) modes' rest := by
  intro p
  have hlength : cs.length ≠ 0 := by simpa using hne
  refine ⟨[⟨kind, String.ofList cs, ⟨p, p.after cs⟩⟩], p.after cs, ?_, ⟨_, rfl, rfl, rfl⟩, ?_⟩
  · rw [tokensFrom, dif_neg (by simp [hne]), hscan]
    simp [oneToken, place, hlength, charsOf_map_char]
  · intro t ht
    rw [List.mem_singleton.mp ht]
    exact hok

/-- One step of the lexer that finds blanks. -/
theorem lexes_of_scanStep_blanks (cs : List Char) (hne : cs ≠ [])
    (hscan : scanStep modes ((cs ++ rest).map .char) = ⟨[⟨none, cs.length⟩], modes'⟩) :
    Lexes modes (cs ++ rest) (· = []) modes' rest := by
  intro p
  have hlength : cs.length ≠ 0 := by simpa using hne
  refine ⟨[], ⟨p.line, p.column + cs.length⟩, ?_, rfl, by simp⟩
  rw [tokensFrom, dif_neg (by simp [hne]), hscan]
  simp [place, hlength]

/-- The end of a text is the end of the file. -/
theorem Lexes.tokensFrom_eq (h : Lexes modes cs P modes' []) (p : Position) :
    ∃ ts last, tokensFrom modes p (cs.map .char) = ts ++ [last] ∧ P ts ∧ last.kind = .eof ∧
      ∀ t ∈ ts, tokenProblem? t = none := by
  obtain ⟨ts, q, heq, hP, hok⟩ := h p
  refine ⟨ts, ⟨.eof, "", ⟨q, q⟩⟩, ?_, hP, rfl, hok⟩
  rw [heq, List.map_nil, tokensFrom, dif_pos rfl]

end Fronts

/-! ## 2. Signs -/

section Code

variable {braces : Option Nat} {outer : List LexMode} {rest : List Char}

/-- A sign that is a token of its own, whatever stands after it. -/
theorem lexes_sign {c : Char} {kind : TokenKind} {modes' : List LexMode}
    (hscan : ∀ s, scanCode braces outer (.char c :: s) = oneToken kind 1 modes')
    (hok : tokenProblem? ⟨kind, "", ⟨Position.start, Position.start⟩⟩ = none) :
    Lexes (.code braces :: outer) (c :: rest) (IsToken kind (String.ofList [c])) modes' rest :=
  lexes_of_scanStep [c] kind (by simp) (hscan (rest.map .char)) hok

theorem lexes_newline :
    Lexes (.code braces :: outer) ('\n' :: rest) (IsToken .newline "\n")
      (.code braces :: outer) rest :=
  lexes_sign (fun _ => rfl) rfl

theorem lexes_comma :
    Lexes (.code braces :: outer) (',' :: rest) (IsToken .comma ",") (.code braces :: outer) rest :=
  lexes_sign (fun _ => rfl) rfl

theorem lexes_minus :
    Lexes (.code braces :: outer) ('-' :: rest) (IsToken .minus "-") (.code braces :: outer) rest :=
  lexes_sign (fun _ => rfl) rfl

theorem lexes_openBracket :
    Lexes (.code braces :: outer) ('[' :: rest) (IsToken .openBracket "[")
      (.code braces :: outer) rest :=
  lexes_sign (fun _ => rfl) rfl

theorem lexes_closeBracket :
    Lexes (.code braces :: outer) (']' :: rest) (IsToken .closeBracket "]")
      (.code braces :: outer) rest :=
  lexes_sign (fun _ => rfl) rfl

theorem lexes_openBrace :
    Lexes [.code none] ('{' :: rest) (IsToken .openBrace "\x7b") [.code none] rest :=
  lexes_sign (fun _ => rfl) rfl

theorem lexes_closeBrace :
    Lexes [.code none] ('}' :: rest) (IsToken .closeBrace "\x7d") [.code none] rest :=
  lexes_sign (fun _ => rfl) rfl

theorem lexes_openQuote :
    Lexes (.code braces :: outer) ('"' :: rest) (IsToken .openQuote "\"")
      (.quoted :: .code braces :: outer) rest :=
  lexes_sign (fun _ => rfl) rfl

/-- An equals sign before a blank is no operator. -/
theorem lexes_assign :
    Lexes (.code braces :: outer) ('=' :: ' ' :: rest) (IsToken .assign "=") (.code braces :: outer)
      (' ' :: rest) :=
  lexes_of_scanStep ['='] .assign (by simp) rfl rfl

/-! ## 3. Blanks, words and numbers -/

/-- How many symbols a run of characters of one class takes. -/
theorem length_takeWhile_map_char {p : Symbol → Bool} {cs rest : List Char}
    (hcs : ∀ c ∈ cs, p (.char c) = true) (hrest : ∀ c ∈ rest.head?, p (.char c) = false) :
    (((cs ++ rest).map Symbol.char).takeWhile p).length = cs.length := by
  have hrun : (cs ++ rest).takeWhile (p ∘ Symbol.char) = cs :=
    (Text.takeWhile_append_of_head hcs hrest).1
  rw [List.takeWhile_map, hrun, List.length_map]

theorem scanCode_blanks {s : List Symbol} (h : 0 < (s.takeWhile isBlank).length) :
    scanCode braces outer s = ⟨[⟨none, (s.takeWhile isBlank).length⟩], .code braces :: outer⟩ := by
  unfold scanCode
  rw [if_pos h]

theorem scanCode_number {s : List Symbol} (hblanks : (s.takeWhile isBlank).length = 0)
    (heol : lineEndLength s = 0) (h : 0 < numberLength s) :
    scanCode braces outer s = oneToken .number (numberLength s) (.code braces :: outer) := by
  unfold scanCode
  rw [if_neg (by omega), if_neg (by omega), if_pos h]

theorem scanCode_word {s : List Symbol} (hblanks : (s.takeWhile isBlank).length = 0)
    (heol : lineEndLength s = 0) (hnumber : numberLength s = 0) (h : 0 < identifierLength s) :
    scanCode braces outer s =
      oneToken .identifier (identifierLength s) (.code braces :: outer) := by
  unfold scanCode
  rw [if_neg (by omega), if_neg (by omega), if_neg (by omega), if_pos h]

theorem lineEndLength_cons {c : Char} (hc : isLineChar c = false) (s : List Symbol) :
    lineEndLength (.char c :: s) = 0 := by
  simp only [isLineChar, Bool.or_eq_false_iff, beq_eq_false_iff_ne] at hc
  rw [lineEndLength]
  · rintro _ ⟨⟩
    exact hc.2 rfl
  · rintro _ ⟨⟩
    exact hc.1 rfl

theorem length_takeWhile_isBlank_cons {c : Char} (hc : isBlank (.char c) = false)
    (s : List Symbol) : ((.char c :: s).takeWhile isBlank).length = 0 := by
  simp [hc]

theorem lexes_blanks {n : Nat} (hrest : ∀ c ∈ rest.head?, isBlank (.char c) = false) :
    Lexes (.code braces :: outer) (List.replicate n ' ' ++ rest) (· = [])
      (.code braces :: outer) rest := by
  cases n with
  | zero => exact .nothing rfl
  | succ n =>
    refine lexes_of_scanStep_blanks _ (by simp) ?_
    have hblanks : ∀ c ∈ List.replicate (n + 1) ' ', isBlank (.char c) = true := by
      intro c hc
      rw [List.eq_of_mem_replicate hc]
      rfl
    have hlength := length_takeWhile_map_char hblanks hrest
    rw [List.length_replicate] at hlength
    rw [scanStep, scanCode_blanks (by omega), hlength, List.length_replicate]

/-- A name that is read as a single word. -/
def isWord (s : String) : Bool :=
  match s.toList with
  | [] => false
  | c :: cs =>
    Text.isIdentifierStart c && !isBlank (.char c) && !isLineChar c && !c.isDigit && cs.all
      Text.isIdentifierRest

theorem lexes_word {s : String} (hs : isWord s = true)
    (hrest : ∀ c ∈ rest.head?, Text.isIdentifierRest c = false) :
    Lexes (.code braces :: outer) (s.toList ++ rest) (IsToken .identifier s)
      (.code braces :: outer) rest := by
  unfold isWord at hs
  cases hcs : s.toList with
  | nil => simp [hcs] at hs
  | cons c cs =>
    simp only [hcs, Bool.and_eq_true, Bool.not_eq_true', List.all_eq_true] at hs
    obtain ⟨⟨⟨⟨hstart, hblank⟩, hline⟩, hdigit⟩, hall⟩ := hs
    have hs : String.ofList (c :: cs) = s := by rw [← hcs, String.ofList_toList]
    rw [← hs]
    refine lexes_of_scanStep (c :: cs) .identifier (by simp) ?_ rfl
    have hlength : identifierLength (.char c :: (cs ++ rest).map .char) = (c :: cs).length := by
      rw [identifierLength, if_pos hstart, length_takeWhile_map_char hall hrest,
        List.length_cons, Nat.add_comm]
    have hnumber : numberLength (.char c :: (cs ++ rest).map .char) = 0 := by
      simp [numberLength, hdigit]
    have hpos : 0 < identifierLength (.char c :: (cs ++ rest).map .char) := by
      rw [hlength]; exact Nat.succ_pos _
    change scanCode braces outer (.char c :: (cs ++ rest).map .char) = _
    rw [scanCode_word (length_takeWhile_isBlank_cons hblank _) (lineEndLength_cons hline _) hnumber
      hpos, hlength]

/-! ## 4. Numbers -/

theorem numberLengthFrom_digit {c : Char} (hc : c.isDigit = true) (s : List Symbol)
    (size best : Nat) :
    numberLengthFrom (.char c :: s) size best = numberLengthFrom s (size + 1) (size + 1) := by
  rw [numberLengthFrom.eq_def]
  simp only [hc, if_true]

theorem numberLengthFrom_point (s : List Symbol) (size best : Nat) :
    numberLengthFrom (.char '.' :: s) size best = numberLengthFrom s (size + 1) best := by
  rw [numberLengthFrom.eq_def]
  rfl

theorem numberLengthFrom_digits {ds : List Char} (hds : ∀ c ∈ ds, c.isDigit = true)
    (s : List Symbol) (size : Nat) :
    numberLengthFrom (ds.map .char ++ s) size size =
      numberLengthFrom s (size + ds.length) (size + ds.length) := by
  induction ds generalizing size with
  | nil => rfl
  | cons c ds ih =>
    obtain ⟨hc, hds⟩ := List.forall_mem_cons.mp hds
    rw [List.map_cons, List.cons_append, numberLengthFrom_digit hc, ih hds, List.length_cons,
      Nat.add_assoc, Nat.add_comm 1]

/-- What ends a number. -/
def EndsNumber (rest : List Char) : Prop :=
  ∀ c ∈ rest.head?, c.isDigit = false ∧ c ≠ '.' ∧ c ≠ 'e' ∧ c ≠ 'E'

theorem numberLengthFrom_end (hrest : EndsNumber rest) (size best : Nat) :
    numberLengthFrom (rest.map .char) size best = best := by
  cases rest with
  | nil => rfl
  | cons c rest =>
    obtain ⟨hdigit, hpoint, hlower, hupper⟩ := hrest c rfl
    rw [List.map_cons, numberLengthFrom.eq_def]
    simp [hdigit, hpoint, hlower, hupper]

/-- Digits, and perhaps a point and more digits, are a number. -/
theorem lexes_number {whole fraction : List Char} (hwhole : whole ≠ [])
    (hdigits : ∀ c ∈ whole ++ fraction, c.isDigit = true) (hrest : EndsNumber rest) :
    Lexes (.code braces :: outer) ((whole ++ if fraction = [] then [] else '.' :: fraction) ++ rest)
      (IsToken .number (String.ofList (whole ++ if fraction = [] then [] else '.' :: fraction)))
        (.code braces :: outer) rest := by
  obtain ⟨hwholeDigits, hfraction⟩ := List.forall_mem_append.mp hdigits
  obtain ⟨c, cs, rfl⟩ := List.exists_cons_of_ne_nil hwhole
  obtain ⟨hc, hcs⟩ := List.forall_mem_cons.mp hwholeDigits
  refine lexes_of_scanStep _ .number (by simp) ?_ rfl
  -- the longest number is all of the digits, since what follows cannot continue it
  have hlength : numberLength
      (.char c :: ((cs ++ if fraction = [] then [] else '.' :: fraction) ++ rest).map .char) =
      (c :: (cs ++ if fraction = [] then [] else '.' :: fraction)).length := by
    rw [numberLength, if_pos hc, List.append_assoc, List.map_append, numberLengthFrom_digits hcs]
    cases fraction with
    | nil =>
      rw [if_pos rfl, List.nil_append, numberLengthFrom_end hrest]
      simp [Nat.add_comm]
    | cons d ds =>
      obtain ⟨hd, hds⟩ := List.forall_mem_cons.mp hfraction
      rw [if_neg (by simp), List.cons_append, List.map_cons, numberLengthFrom_point,
        List.cons_append, List.map_cons, numberLengthFrom_digit hd, List.map_append,
        numberLengthFrom_digits hds, numberLengthFrom_end hrest]
      simp
      omega
  have hpos : 0 < numberLength
      (.char c :: ((cs ++ if fraction = [] then [] else '.' :: fraction) ++ rest).map .char) := by
    rw [hlength]
    exact Nat.succ_pos _
  have hblank : isBlank (.char c) = false := by
    rw [isBlank, Symbol.satisfies, Bool.or_eq_false_iff, beq_eq_false_iff_ne, beq_eq_false_iff_ne]
    constructor <;> (rintro rfl; revert hc; decide)
  have hline : isLineChar c = false := by
    rw [isLineChar, Bool.or_eq_false_iff, beq_eq_false_iff_ne, beq_eq_false_iff_ne]
    constructor <;> (rintro rfl; revert hc; decide)
  change scanCode braces outer
    (.char c :: ((cs ++ if fraction = [] then [] else '.' :: fraction) ++ rest).map .char) = _
  rw [scanCode_number (length_takeWhile_isBlank_cons hblank _) (lineEndLength_cons hline _) hpos,
    hlength]
  rfl

end Code

end CypherBlocks.Config
