import CypherBlocks.Proofs.ConfigSections
import CypherBlocks.Proofs.ReadBack
import CypherBlocks.Document.Write

/-!
# The text of a graph

The canonical text of a graph is made of the tokens of one section for each block, with the
arguments that say something, and one for each connection.  Nothing is asked of what stands between
two sections but that it is blank lines.  The tokens spell the graph up to confidences that do not
read back: what they spell is what is kept of the graph.
-/

namespace CypherBlocks

/-- A block that can be written and read again. -/
structure Block.Fits (b : Block) : Prop where
  params : ∃ p ∈ b.params, ∀ a ∈ p.arguments, a.2.Fits
  id : Text.isBlank b.id = false ∧ Text.normalize b.id = b.id
  label : Text.normalize b.label = b.label

instance (b : Block) : Decidable b.Fits :=
  decidable_of_iff ((∃ p ∈ b.params, ∀ a ∈ p.arguments, a.2.Fits) ∧
    (Text.isBlank b.id = false ∧ Text.normalize b.id = b.id) ∧ Text.normalize b.label = b.label)
    ⟨fun h => ⟨h.1, h.2.1, h.2.2⟩, fun h => ⟨h.params, h.id, h.label⟩⟩

/-- A connection between texts that can be written and read again. -/
structure Connection.Fits (c : Connection) : Prop where
  source : Text.normalize c.source = c.source
  target : Text.normalize c.target = c.target

instance (c : Connection) : Decidable c.Fits :=
  decidable_of_iff (Text.normalize c.source = c.source ∧ Text.normalize c.target = c.target)
    ⟨fun h => ⟨h.1, h.2⟩, fun h => ⟨h.source, h.target⟩⟩

/-- A value whose text is that of an expression: one that fits, or the infinite number below zero,
which no expression gives back. -/
def ArgumentValue.Parses (v : ArgumentValue) : Prop := v.Fits ∨ v = .real (.infinite true)

/-- A block whose text is that of a section. -/
structure Block.Parses (b : Block) : Prop where
  params : ∃ p ∈ b.params, ∀ a ∈ p.arguments, a.2.Parses
  id : Text.normalize b.id = b.id
  label : Text.normalize b.label = b.label

theorem Block.Fits.parses {b : Block} (h : b.Fits) : b.Parses := by
  obtain ⟨⟨p, hp, hparams⟩, ⟨-, hid⟩, hlabel⟩ := h
  exact ⟨⟨p, hp, fun a ha => .inl (hparams a ha)⟩, hid, hlabel⟩

/-! ## 1. What is kept -/

def ArgumentValue.kept : ArgumentValue → ArgumentValue
  | .real x => .real x.kept
  | v => v

def Params.kept : Params → Params
  | .nodeFilter p => .nodeFilter { p with minConfidence := p.minConfidence.kept }
  | p => p

def Block.kept (b : Block) : Block := { b with params := b.params.map Params.kept }

/-- What is left of a graph when it is written and read. -/
def Graph.kept (g : Graph) : Graph := { g with blocks := g.blocks.map Block.kept }

theorem ArgumentValue.Fits.kept {v : ArgumentValue} (h : v.Fits) : v.kept.Fits := by
  cases v with
  | real x => exact Double.IsProper.kept h
  | _ => exact h

theorem ArgumentValue.isZero_kept (v : ArgumentValue) : v.kept.isZero = v.isZero := by
  cases v with
  | real x => exact x.isZero_kept
  | _ => rfl

/-- An argument with the value that is kept. -/
def keptArgument (a : String × ArgumentValue) : String × ArgumentValue := (a.1, a.2.kept)

theorem Params.kind_kept (p : Params) : p.kept.kind = p.kind := by
  cases p <;> rfl

theorem Params.arguments_kept (p : Params) : p.kept.arguments = p.arguments.map keptArgument := by
  cases p <;> rfl

theorem Block.Fits.kept {b : Block} (h : b.Fits) : b.kept.Fits := by
  obtain ⟨⟨p, hp, hparams⟩, hid, hlabel⟩ := h
  refine ⟨⟨p.kept, by rw [Block.kept, hp]; rfl, fun a ha => ?_⟩, hid, hlabel⟩
  rw [p.arguments_kept] at ha
  obtain ⟨b, hb, rfl⟩ := List.mem_map.mp ha
  exact (hparams b hb).kept

/-- What is written is decided before anything is lost. -/
theorem Document.writtenArguments_kept (label : String) (p : Params) :
    writtenArguments label p.kept = (writtenArguments label p).map keptArgument := by
  unfold writtenArguments
  have hcons : ((labelName, ArgumentValue.text label) :: p.kept.arguments) =
      ((labelName, .text label) :: p.arguments).map keptArgument := by
    rw [p.arguments_kept]
    rfl
  rw [hcons, List.filter_map]
  congr 1
  refine List.filter_congr fun a _ => ?_
  change (!a.2.kept.isZero) = !a.2.isZero
  rw [a.2.isZero_kept]

end CypherBlocks

namespace CypherBlocks.Document

open Config

/-! ## 2. Literals -/

section Literals

variable {braces : Option Nat} {outer : List LexMode} {rest : List Char}

def signText (neg : Bool) : List Char := if neg then ['-'] else []

/-- A number with its sign, if the digits are read as a number at all. -/
theorem lexes_signed (neg : Bool) {whole fraction : List Char} {b : Binary} (hwhole : whole ≠ [])
    (hdigits : ∀ c ∈ whole ++ fraction, c.isDigit = true)
    (hb : Binary.parse? (String.ofList (Binary.pointText whole fraction)) = some b)
    (hrest : EndsNumber rest) :
    Lexes (.code braces :: outer) (signText neg ++ Binary.pointText whole fraction ++ rest)
      (SpellsNumber neg b)
      (.code braces :: outer) rest := by
  have hnumber : Lexes (.code braces :: outer) (Binary.pointText whole fraction ++ rest)
      (IsToken .number (String.ofList (Binary.pointText whole fraction)))
        (.code braces :: outer) rest :=
    lexes_number hwhole hdigits hrest
  cases neg with
  | false =>
    refine hnumber.imp fun ts hts => ?_
    obtain ⟨t, rfl, ht, htext⟩ := hts
    exact ⟨[], t, rfl, by simp, ht, htext ▸ hb⟩
  | true =>
    refine (lexes_minus.trans hnumber).imp fun ts hts => ?_
    obtain ⟨us, vs, rfl, ⟨m, rfl, hm, -⟩, ⟨t, rfl, ht, htext⟩⟩ := hts
    exact ⟨[m], t, rfl, by simpa using hm, ht, htext ▸ hb⟩

/-- A number begins with its sign or a digit. -/
theorem head?_signed (neg : Bool) {whole fraction : List Char} (hwhole : whole ≠ [])
    (hdigits : ∀ c ∈ whole ++ fraction, c.isDigit = true) :
    ∀ c ∈ (signText neg ++ Binary.pointText whole fraction).head?, isBlank (.char c) = false := by
  obtain ⟨d, ds, rfl⟩ := List.exists_cons_of_ne_nil hwhole
  have hd := hdigits d (by simp)
  intro c hc
  cases neg with
  | true =>
    cases hc
    rfl
  | false =>
    cases hc
    rw [isBlank, Text.Symbol.satisfies, Bool.or_eq_false_iff, beq_eq_false_iff_ne,
      beq_eq_false_iff_ne]
    constructor <;> (rintro rfl; exact absurd hd (by decide))

theorem toList_toString_int (n : Int) :
    (toString n).toList = signText (n < 0) ++ Binary.pointText (Nat.toDigits 10 n.natAbs) [] := by
  rw [Int.toString_eq_repr]
  cases n with
  | ofNat n => simp [Int.repr, Binary.pointText, signText]
  | negSucc n => simp [Int.repr, Binary.pointText, signText, Int.negSucc_lt_zero]

theorem lexes_whole {n : Int} (hn : leastWhole ≤ n ∧ n ≤ greatestWhole) (hrest : EndsNumber rest) :
    Lexes (.code braces :: outer) ((toString n).toList ++ rest) (fun ts => ∃ e,
      Spells (.whole n) e ts) (.code braces :: outer) rest := by
  have hsize : n.natAbs < 2 ^ Binary.textPrecision := by
    have hbound : n.natAbs < 2 ^ 64 := by
      unfold leastWhole greatestWhole at hn
      omega
    exact hbound.trans (Nat.pow_lt_pow_right (by decide) (by decide))
  obtain ⟨b, hb, hvalue⟩ := Binary.parse?_repr hsize
  rw [Binary.repr_eq_pointText] at hb
  rw [toList_toString_int]
  refine (lexes_signed (n < 0) Nat.toDigits_ne_nil (Binary.isDigit_toDigits _) hb hrest).imp
    fun ts hts => ?_
  exact ⟨_, .whole hts hvalue⟩

/-- The text of a number that is not infinite: its sign, digits, and perhaps a point and more
digits. -/
theorem toList_text {b : Binary} (hb : b.size ≠ .infinite) :
    ∃ whole fraction : List Char, whole ≠ [] ∧ (∀ c ∈ whole ++ fraction, c.isDigit = true) ∧
      b.text.toList = signText b.neg ++ Binary.pointText whole fraction ∧
      { b with neg := false }.text = String.ofList (Binary.pointText whole fraction) := by
  obtain ⟨prec, neg, size⟩ := b
  cases size with
  | infinite => contradiction
  | zero =>
    refine ⟨['0'], [], by simp, by simp, ?_, rfl⟩
    cases neg <;> simp [Binary.text, signText, Binary.pointText]
  | finite m e =>
    have htext := (Binary.shortest prec m e).toList_text
    refine ⟨_, _, Decimal.wholeDigits_ne_nil _, (Binary.isDecimal_shortest prec m e).isDigit, ?_,
      ?_⟩
    · change ((if neg then "-" else "") ++ (Binary.shortest prec m e).text).toList = _
      rw [String.toList_append, htext]
      cases neg <;> rfl
    · change "" ++ (Binary.shortest prec m e).text = _
      rw [String.empty_append, ← String.ofList_toList (s := (Binary.shortest prec m e).text), htext]
      rfl

/-- A finite double is written as the digits of a number, which are read as what the double is read
back as. -/
theorem lexes_real {x y : Double} (hfinite : x.isFinite = true) (hy : x.reread? = some y)
    (hyfinite : y.isFinite = true) :
    ∃ s, realLiteral x = .ok s ∧ (∀ c ∈ s.toList.head?, isBlank (.char c) = false) ∧ ∀ rest,
      EndsNumber rest →
      Lexes (.code braces :: outer) (s.toList ++ rest) (fun ts => ∃ e, Spells (.real y) e ts)
        (.code braces :: outer) rest := by
  cases x with
  | infinite => cases hfinite
  | nan => cases hfinite
  | finite neg m e =>
    obtain ⟨n, hn, rfl⟩ := Option.map_eq_some_iff.mp hy
    -- the text of an infinite number would be read as one
    have hround : (Binary.round Double.mantissaBits neg m e).size ≠ .infinite := by
      intro hinfinite
      have htext : Binary.text ⟨(Binary.round Double.mantissaBits neg m e).prec, false,
          (Binary.round Double.mantissaBits neg m e).size⟩ = "+Inf" := by
        rw [hinfinite]
        rfl
      rw [htext, Binary.parse?_of_spellsInfinity (.upper .plus)] at hn
      obtain rfl := Option.some.inj hn
      split at hyfinite <;> cases hyfinite
    obtain ⟨whole, fraction, hwhole, hdigits, htext, hdigitsText⟩ := toList_text hround
    rw [hdigitsText] at hn
    refine ⟨_, rfl, ?_, fun rest hrest => ?_⟩
    · rw [htext]
      exact head?_signed _ hwhole hdigits
    · rw [htext]
      refine (lexes_signed _ hwhole hdigits hn hrest).imp fun ts hts => ?_
      exact ⟨_, .real hts rfl hyfinite⟩

theorem toList_textLiteral (s : String) : ∃ more, (textLiteral s).toList = '"' :: more := by
  unfold textLiteral
  rw [String.toList_ofList]
  exact ⟨_, rfl⟩

theorem toList_intercalate_textLiteral (s : String) (ss : List String) :
    ∃ more, (String.intercalate ", " ((s :: ss).map textLiteral)).toList = '"' :: more := by
  obtain ⟨more, hs⟩ := toList_textLiteral s
  cases ss with
  | nil =>
    rw [List.map_singleton, String.intercalate_singleton]
    exact ⟨more, hs⟩
  | cons s' ss =>
    rw [List.map_cons, List.map_cons, String.intercalate_cons_cons, String.toList_append,
      String.toList_append, hs]
    exact ⟨_, rfl⟩

/-- One blank before what is none. -/
theorem lexes_blank {c : Char} (hc : isBlank (.char c) = false) :
    Lexes (.code braces :: outer) (' ' :: c :: rest) (· = []) (.code braces :: outer)
      (c :: rest) := by
  have hblank : ∀ d ∈ (c :: rest).head?, isBlank (.char d) = false := by
    intro d hd
    cases hd
    exact hc
  exact lexes_blanks (n := 1) hblank

theorem lexes_items {ss : List String} (hss : ∀ s ∈ ss, Text.normalize s = s) (hne : ss ≠ []) :
    Lexes (.code braces :: outer) ((String.intercalate ", " (ss.map textLiteral)).toList ++ ']' ::
      rest) (SpellsItems ss)
      (.code braces :: outer) rest := by
  induction ss with
  | nil => contradiction
  | cons s ss ih =>
    obtain ⟨hs, hss⟩ := List.forall_mem_cons.mp hss
    cases ss with
    | nil =>
      rw [List.map_singleton, String.intercalate_singleton]
      refine ((lexes_textLiteral hs).trans lexes_closeBracket).imp fun ts hts => ?_
      obtain ⟨us, vs, rfl, hus, ⟨t, rfl, ht, -⟩⟩ := hts
      exact .last hus ht
    | cons s' ss =>
      -- the blank after a comma is followed by the next quote
      have hblank : Lexes (.code braces :: outer)
          (' ' :: ((String.intercalate ", " ((s' :: ss).map textLiteral)).toList ++ ']' :: rest))
          (· = []) (.code braces :: outer)
          ((String.intercalate ", " ((s' :: ss).map textLiteral)).toList ++ ']' :: rest) := by
        obtain ⟨more, hquote⟩ := toList_intercalate_textLiteral s' ss
        rw [hquote]
        exact lexes_blank rfl
      have hmore := hblank.trans_nothing (ih hss (by simp))
      rw [List.map_cons, List.map_cons, String.intercalate_cons_cons, ← List.map_cons]
      simp only [String.toList_append, List.append_assoc]
      refine ((lexes_textLiteral hs).trans (lexes_comma.trans hmore)).imp fun ts hts => ?_
      obtain ⟨us, vs, rfl, hus, ws, zs, rfl, ⟨t, rfl, ht, -⟩, hzs⟩ := hts
      exact .more hus ht hzs

theorem lexes_texts {ss : List String} (hss : ∀ s ∈ ss, Text.normalize s = s) (hne : ss ≠ []) :
    Lexes (.code braces :: outer)
      (("[" ++ String.intercalate ", " (ss.map textLiteral) ++ "]").toList ++ rest)
      (fun ts => ∃ e, Spells (.texts ss) e ts) (.code braces :: outer) rest := by
  simp only [String.toList_append, List.append_assoc]
  refine (lexes_openBracket.trans (lexes_items hss hne)).imp fun ts hts => ?_
  obtain ⟨us, vs, rfl, ⟨t, rfl, ht, -⟩, hvs⟩ := hts
  exact ⟨_, .texts ht hvs⟩

theorem isWord_inf : isWord "Inf" = true := by decide +kernel

/-- A line end ends a word. -/
theorem isIdentifierRest_head?_newline (rest : List Char) :
    ∀ c ∈ ('\n' :: rest).head?, Text.isIdentifierRest c = false := by
  rintro c ⟨⟩
  decide +kernel

theorem lexes_negativeInfinity (rest : List Char) :
    Lexes (.code braces :: outer) ("-Inf".toList ++ '\n' :: rest) (fun ts => ∃ e,
      Spells (.real (.infinite true)) e ts)
      (.code braces :: outer) ('\n' :: rest) := by
  refine (lexes_minus.trans (lexes_word isWord_inf (isIdentifierRest_head?_newline rest))).imp
    fun ts hts => ?_
  obtain ⟨us, vs, rfl, ⟨m, rfl, hm, -⟩, ⟨t, rfl, ht, htext⟩⟩ := hts
  exact ⟨_, .negativeInfinity hm ht htext⟩

/-- A value that fits and says something is written as the tokens of what is kept of it, up to the
end of its line. -/
theorem lexes_literal_of_fits (braces : Option Nat) (outer : List LexMode) {v : ArgumentValue}
    (hv : v.Fits) (hzero : v.isZero = false) :
    ∃ s, literal v = .ok s ∧ (∀ c ∈ s.toList.head?, isBlank (.char c) = false) ∧ ∀ rest,
      Lexes (.code braces :: outer) (s.toList ++ '\n' :: rest) (fun ts => ∃ e, Spells v.kept e ts)
        (.code braces :: outer) ('\n' :: rest) := by
  have hends : ∀ rest, EndsNumber ('\n' :: rest) := by
    intro rest c hc
    cases hc
    decide
  cases v with
  | text s =>
    refine ⟨_, rfl, ?_, fun rest => (lexes_textLiteral hv).imp fun ts hts => ⟨_, .text hts⟩⟩
    obtain ⟨more, hquote⟩ := toList_textLiteral s
    rw [hquote]
    rintro c ⟨⟩
    rfl
  | whole n =>
    refine ⟨_, rfl, ?_, fun rest => lexes_whole hv (hends rest)⟩
    rw [toList_toString_int]
    exact head?_signed _ Nat.toDigits_ne_nil (Binary.isDigit_toDigits _)
  | real x =>
    obtain ⟨s, hs, hhead, hlexes⟩ :=
      lexes_real (Double.IsProper.isFinite hv) (Double.IsProper.reread? hv)
        (Double.IsProper.kept hv).isFinite
    exact ⟨s, hs, hhead, fun rest => hlexes _ (hends rest)⟩
  | texts ss =>
    -- an empty list says nothing and is not written
    have hne : ss ≠ [] := by
      rintro rfl
      cases hzero
    refine ⟨_, rfl, ?_, fun rest => lexes_texts hv hne⟩
    rw [String.toList_append, String.toList_append]
    rintro c ⟨⟩
    rfl

theorem lexes_literal (braces : Option Nat) (outer : List LexMode) {v : ArgumentValue}
    (hv : v.Parses) (hzero : v.isZero = false) :
    ∃ s, literal v = .ok s ∧ (∀ c ∈ s.toList.head?, isBlank (.char c) = false) ∧ ∀ rest,
      Lexes (.code braces :: outer) (s.toList ++ '\n' :: rest) (fun ts => ∃ e, Spells v.kept e ts)
        (.code braces :: outer) ('\n' :: rest) := by
  rcases hv with hv | rfl
  · exact lexes_literal_of_fits braces outer hv hzero
  · refine ⟨"-Inf", rfl, ?_, lexes_negativeInfinity⟩
    rintro c ⟨⟩
    rfl

end Literals

/-! ## 3. Sections -/

section Sections

/-- The section that is written for a block with its parameters. -/
def blockPassage (id label : String) (p : Params) : Passage :=
  ⟨blockForm.kind, [p.kind.tag, id], writtenArguments label p⟩

/-- The section that is written for a connection. -/
def connectionPassage (c : Connection) : Passage := ⟨connectionForm.kind, [c.source, c.target], []⟩

theorem toList_argumentLine (width : Nat) (name value : String) :
    (argumentLine width name value).toList =
      List.replicate 2 ' ' ++
        (name.toList ++ (List.replicate (width - name.length + 1) ' ' ++ '=' :: ' ' ::
        (value.toList ++ ['\n']))) := by
  unfold argumentLine
  simp [toString, List.replicate_succ']

theorem isBlank_head?_word {name : String} (hname : isWord name = true) (rest : List Char) :
    ∀ c ∈ (name.toList ++ rest).head?, isBlank (.char c) = false := by
  unfold isWord at hname
  cases hcs : name.toList with
  | nil => simp [hcs] at hname
  | cons d ds =>
    simp only [hcs, Bool.and_eq_true, Bool.not_eq_true'] at hname
    rintro c ⟨⟩
    exact hname.1.1.1.2

/-- A blank ends a word. -/
theorem isIdentifierRest_head?_blank (rest : List Char) :
    ∀ c ∈ (' ' :: rest).head?, Text.isIdentifierRest c = false := by
  rintro c ⟨⟩
  decide +kernel

/-- A line with an argument whose name is a word and whose value says something. -/
theorem lexes_argumentLine (width : Nat) {name : String} {v : ArgumentValue}
    (hname : isWord name = true) (hv : v.Parses) (hzero : v.isZero = false) :
    ∃ s, literal v = .ok s ∧ ∀ rest,
      Lexes [.code none] ((argumentLine width name s).toList ++ rest)
        (SpellsArgument (name, v.kept)) [.code none] rest := by
  obtain ⟨s, hs, hhead, hvalue⟩ := lexes_literal none [] hv hzero
  refine ⟨s, hs, fun rest => ?_⟩
  have hbefore : ∀ c ∈ (s.toList ++ '\n' :: rest).head?, isBlank (.char c) = false := by
    cases hcs : s.toList with
    | nil =>
      rintro c ⟨⟩
      rfl
    | cons c cs =>
      rw [hcs] at hhead
      exact hhead
  rw [toList_argumentLine]
  simp only [List.append_assoc, List.cons_append, List.nil_append]
  -- from the end of the line to its front
  have hend := (hvalue rest).trans lexes_newline
  have hassign := lexes_assign.trans ((lexes_blanks (n := 1) hbefore).trans_nothing hend)
  have hsign : ∀ c ∈ ('=' :: ' ' :: (s.toList ++ '\n' :: rest)).head?,
      isBlank (.char c) = false := by
    rintro c ⟨⟩
    rfl
  have hpadding := (lexes_blanks (n := width - name.length + 1) hsign).trans_nothing hassign
  have hline := (lexes_blanks (n := 2) (isBlank_head?_word hname _)).trans_nothing
    ((lexes_word hname (isIdentifierRest_head?_blank _)).trans hpadding)
  refine hline.imp fun ts hts => ?_
  obtain ⟨us, vs, rfl, ⟨t, rfl, ht, rfl⟩, ws, xs, rfl, ⟨a, rfl, ha, -⟩, ys, zs, rfl, ⟨e, hys⟩,
      ⟨n, rfl, hn, -⟩⟩ := hts
  exact .line ht ha hys hn

/-- An argument that can be written: its name is a word, and its value has the text of an expression
and says something. -/
def IsWritable (a : String × ArgumentValue) : Prop :=
  isWord a.1 = true ∧ a.2.Parses ∧ a.2.isZero = false

/-- The lines of a block and the brace after them. -/
theorem lexes_lines (width : Nat) {arguments : List (String × ArgumentValue)}
    (h : ∀ a ∈ arguments, IsWritable a) :
    ∃ lines, (arguments.mapM fun (name, v) => do return argumentLine width name (← literal v)) =
      Except.ok lines ∧ ∀ rest,
      Lexes [.code none] ((String.join lines).toList ++ '}' :: rest)
        (SpellsArguments (arguments.map keptArgument)) [.code none] rest := by
  induction arguments with
  | nil =>
    refine ⟨[], rfl, fun rest => lexes_closeBrace.imp fun ts hts => ?_⟩
    obtain ⟨t, rfl, ht, -⟩ := hts
    exact .brace ht
  | cons a arguments ih =>
    obtain ⟨name, v⟩ := a
    obtain ⟨⟨hname, hfits, hzero⟩, h⟩ := List.forall_mem_cons.mp h
    obtain ⟨s, hs, hline⟩ := lexes_argumentLine width hname hfits hzero
    obtain ⟨lines, hlines, hmore⟩ := ih h
    refine ⟨argumentLine width name s :: lines, ?_, fun rest => ?_⟩
    · rw [List.mapM_cons, hlines]
      simp only [hs]
      rfl
    · -- the tokens of the first line and then those of the others
      rw [String.join_cons, String.toList_append, List.append_assoc]
      refine ((hline _).trans (hmore rest)).imp fun ts hts => ?_
      obtain ⟨us, vs, rfl, hus, hvs⟩ := hts
      exact .argument hus hvs

theorem toList_sectionHead (kind first second : String) :
    (sectionHead kind first second).toList =
      kind.toList ++ ' ' ::
        ((textLiteral first).toList ++ ' ' ::
        ((textLiteral second).toList ++ ' ' :: '{' :: ['\n'])) := by
  unfold sectionHead
  simp [toString]

/-- The front of a section up to the end of its line. -/
def SpellsHead (kind : String) (labels : List String) (ts : List Token) : Prop :=
  ∃ t us n, ts = t :: (us ++ [n]) ∧ t.kind = .identifier ∧ t.text = kind ∧ SpellsLabels labels us ∧
    n.kind = .newline

theorem lexes_label {s : String} (hs : Text.normalize s = s) {rest : List Char} :
    Lexes [.code none] (' ' :: ((textLiteral s).toList ++ rest)) (SpellsQuoted s)
      [.code none] rest := by
  obtain ⟨more, hquote⟩ := toList_textLiteral s
  have hblank : Lexes [.code none] (' ' :: ((textLiteral s).toList ++ rest)) (· = []) [.code none]
      ((textLiteral s).toList ++ rest) := by
    rw [hquote]
    exact lexes_blank rfl
  exact hblank.trans_nothing (lexes_textLiteral hs)

theorem lexes_sectionHead {kind first second : String} (hkind : isWord kind = true)
    (hfirst : Text.normalize first = first) (hsecond : Text.normalize second = second)
    (rest : List Char) :
    Lexes [.code none] ((sectionHead kind first second).toList ++ rest)
      (SpellsHead kind [first, second]) [.code none] rest := by
  rw [toList_sectionHead]
  simp only [List.append_assoc, List.cons_append, List.nil_append]
  have hbrace : Lexes [.code none] (' ' :: '{' :: '\n' :: rest) _ [.code none] rest :=
    (lexes_blank rfl).trans_nothing (lexes_openBrace.trans lexes_newline)
  have hlabels := (lexes_label hfirst).trans ((lexes_label hsecond).trans hbrace)
  refine ((lexes_word hkind (isIdentifierRest_head?_blank _)).trans hlabels).imp fun ts hts => ?_
  obtain ⟨us, vs, rfl, ⟨t, rfl, ht, htext⟩, ws, xs, rfl, hws, ys, zs, rfl, hys, bs, ns, rfl,
      ⟨b, rfl, hb, -⟩, ⟨n, rfl, hn, -⟩⟩ := hts
  refine ⟨t, ws ++ (ys ++ [b]), n, by simp, ht, htext, .label hws (.label hys (.brace hb)), hn⟩

/-- A section with its lines. -/
theorem lexes_section {kind first second : String} {arguments : List (String × ArgumentValue)}
    {lines : List String} {rest : List Char} (hkind : isWord kind = true)
    (hfirst : Text.normalize first = first) (hsecond : Text.normalize second = second)
    (hlines : ∀ rest,
      Lexes [.code none] ((String.join lines).toList ++ '}' :: rest) (SpellsArguments arguments)
      [.code none] rest) :
    Lexes [.code none]
      ((sectionHead kind first second ++ String.join lines ++ sectionEnd).toList ++ rest)
      (SpellsPassage ⟨kind, [first, second], arguments⟩) [.code none] rest := by
  simp only [String.toList_append, List.append_assoc]
  have hbody := (hlines ('\n' :: rest)).trans lexes_newline
  refine ((lexes_sectionHead hkind hfirst hsecond _).trans hbody).imp fun ts hts => ?_
  obtain ⟨us, vs, rfl, ⟨t, ls, n, rfl, ht, rfl, hls, hn⟩, ws, xs, rfl, hws, ⟨n', rfl, hn', -⟩⟩ :=
    hts
  have hpassage := SpellsPassage.lines ht hls hn hws hn'
  simpa using hpassage

end Sections

/-! ## 4. Blocks, connections and graphs -/

section Graphs

theorem isWord_of_mem_arguments (p : Params) : ∀ a ∈ p.arguments, isWord a.1 = true := by
  cases p <;> simp only [Params.arguments, List.forall_mem_cons, List.not_mem_nil, false_implies,
    implies_true, and_true] <;> decide +kernel

theorem isWord_labelName : isWord labelName = true := by decide +kernel

theorem isWord_blockForm : isWord blockForm.kind = true := by decide +kernel

theorem isWord_connectionForm : isWord connectionForm.kind = true := by decide +kernel

theorem normalize_tag (kind : Kind) : Text.normalize kind.tag = kind.tag := by
  cases kind <;> decide +kernel

/-- What holds of the label and of all arguments holds of those that are written. -/
theorem forall_mem_writtenArguments {P : String × ArgumentValue → Prop} {label : String}
    {p : Params} (hlabel : P (labelName, .text label)) (hp : ∀ a ∈ p.arguments, P a) :
    ∀ a ∈ writtenArguments label p, P a := by
  intro a ha
  rcases List.mem_cons.mp (List.mem_filter.mp ha).1 with rfl | hmem
  · exact hlabel
  · exact hp a hmem

theorem mem_writtenArguments {label : String} {p : Params} {a : String × ArgumentValue}
    (ha : a ∈ p.arguments) (hzero : a.2.isZero = false) : a ∈ writtenArguments label p := by
  refine List.mem_filter.mpr ⟨List.mem_cons_of_mem _ ha, ?_⟩
  simpa using hzero

/-- What is written has a word for its name, and is not zero. -/
theorem isWord_of_mem_writtenArguments {label : String} {p : Params} {a : String × ArgumentValue}
    (ha : a ∈ writtenArguments label p) : isWord a.1 = true ∧ a.2.isZero = false := by
  have hzero : a.2.isZero = false := by simpa using (List.mem_filter.mp ha).2
  exact ⟨forall_mem_writtenArguments (P := fun a => isWord a.1 = true) isWord_labelName
    (isWord_of_mem_arguments p) a ha, hzero⟩

theorem isWritable_of_mem_writtenArguments {label : String} {p : Params}
    (hlabel : Text.normalize label = label) (hp : ∀ a ∈ p.arguments, a.2.Parses) :
    ∀ a ∈ writtenArguments label p, IsWritable a := by
  intro a ha
  obtain ⟨hname, hzero⟩ := isWord_of_mem_writtenArguments ha
  have hparses : a.2.Parses :=
    forall_mem_writtenArguments (P := fun a => a.2.Parses) (.inl hlabel) hp a ha
  exact ⟨hname, hparses, hzero⟩

/-- A text that does not begin with a byte order mark. -/
def Unmarked (cs : List Char) : Prop := ∀ c ∈ cs.head?, c.toNat ≠ 0xfeff

theorem unmarked_section {kind first second : String} (c : Char)
    (hkind : kind.toList.head? = some c) (hc : c.toNat ≠ 0xfeff) (rest : List Char) :
    Unmarked ((sectionHead kind first second).toList ++ rest) := by
  obtain ⟨cs, hcs⟩ := List.head?_eq_some_iff.mp hkind
  rw [toList_sectionHead, hcs]
  rintro d ⟨⟩
  exact hc

theorem Unmarked.dropByteOrderMark_eq {cs : List Char} (h : Unmarked cs) :
    dropByteOrderMark (cs.map .char) = cs.map .char := by
  cases cs with
  | nil => rfl
  | cons c cs => exact if_neg (h c rfl)

/-- A block is written as its section. -/
theorem lexes_blockText {id label : String} {p : Params} (h : Block.Parses ⟨id, label, some p⟩) :
    ∃ s, blockText ⟨id, label, some p⟩ = .ok s ∧ ∀ rest, Unmarked (s.toList ++ rest) ∧
      Lexes [.code none] (s.toList ++ rest) (SpellsPassage (blockPassage id label p.kept))
        [.code none] rest := by
  obtain ⟨⟨p', hp', hparams⟩, hid, hlabel⟩ := h
  cases hp'
  have hwritable := isWritable_of_mem_writtenArguments hlabel hparams
  obtain ⟨lines, hlines, hlexes⟩ :=
    lexes_lines (((writtenArguments label p).map (·.1.length)).foldl max 0) hwritable
  refine ⟨sectionHead blockForm.kind p.kind.tag id ++ String.join lines ++ sectionEnd, ?_,
    fun rest => ⟨?_, ?_⟩⟩
  · unfold blockText
    simp only [hlines]
    rfl
  · simp only [String.toList_append, List.append_assoc]
    exact unmarked_section 'b' (by decide) (by decide) _
  · rw [blockPassage, p.kind_kept, writtenArguments_kept]
    exact lexes_section isWord_blockForm (normalize_tag p.kind) hid hlexes

theorem lexes_connectionText {c : Connection} (h : c.Fits) (rest : List Char) :
    Lexes [.code none] ((connectionText c).toList ++ rest) (SpellsPassage (connectionPassage c))
      [.code none] rest := by
  obtain ⟨lines, hlines, hlexes⟩ := lexes_lines 0 (List.forall_mem_nil IsWritable)
  obtain rfl : [] = lines := Except.ok.inj hlines
  have htext : connectionText c =
      sectionHead connectionForm.kind c.source c.target ++ String.join [] ++ sectionEnd := by
    rw [String.join_nil, String.append_empty, connectionText]
  rw [htext]
  exact lexes_section isWord_connectionForm h.source h.target hlexes

/-- The sections that are written for blocks. -/
def blockPassages (bs : List Block) : List Passage :=
  bs.filterMap fun b => b.params.map (blockPassage b.id b.label)

theorem blockPassages_cons (id label : String) (p : Params) (bs : List Block) :
    blockPassages (⟨id, label, some p⟩ :: bs) = blockPassage id label p :: blockPassages bs := rfl

/-- The sections that are written for a graph. -/
def passages (g : Graph) : List Passage :=
  blockPassages g.blocks ++ g.connections.map connectionPassage

theorem unmarked_connections (cs : List Connection) :
    Unmarked (String.join (cs.map connectionText)).toList := by
  cases cs with
  | nil => simp [Unmarked, String.join_nil]
  | cons c cs =>
    rw [List.map_cons, String.join_cons, connectionText, String.toList_append, String.toList_append,
      List.append_assoc]
    exact unmarked_section 'c' (by decide) (by decide) _

theorem lexes_connections {cs : List Connection} (h : ∀ c ∈ cs, c.Fits) :
    Lexes [.code none] (String.join (cs.map connectionText)).toList
      (SpellsFile (cs.map connectionPassage)) [.code none] [] := by
  induction cs with
  | nil => exact .nothing .nil
  | cons c cs ih =>
    obtain ⟨hc, h⟩ := List.forall_mem_cons.mp h
    rw [List.map_cons, String.join_cons, String.toList_append]
    refine ((lexes_connectionText hc _).trans (ih h)).imp fun ts hts => ?_
    obtain ⟨us, vs, rfl, hus, hvs⟩ := hts
    exact .passage hus hvs

/-- Blocks with blank lines between them, before any other sections. -/
theorem lexes_blocks {bs : List Block} (h : ∀ b ∈ bs, b.Parses) :
    ∃ texts, bs.mapM blockText = .ok texts ∧ ∀ rest ss, Unmarked rest →
      Lexes [.code none] rest (SpellsFile ss) [.code none] [] →
      Unmarked ((String.intercalate "\n" texts).toList ++ rest) ∧
      Lexes [.code none] ((String.intercalate "\n" texts).toList ++ rest)
        (SpellsFile (blockPassages (bs.map Block.kept) ++ ss)) [.code none] [] := by
  -- by induction on the blocks, for whatever comes after them
  induction bs with
  | nil => exact ⟨[], rfl, fun rest ss hmark hrest => ⟨hmark, hrest⟩⟩
  | cons b bs ih =>
    obtain ⟨hb, h⟩ := List.forall_mem_cons.mp h
    obtain ⟨texts, htexts, hmore⟩ := ih h
    obtain ⟨id, label, params⟩ := b
    obtain ⟨p, rfl : params = some p, -⟩ := hb.params
    obtain ⟨s, hs, hlexes⟩ := lexes_blockText hb
    refine ⟨s :: texts, ?_, fun rest ss hmark hrest => ?_⟩
    · rw [List.mapM_cons, htexts, hs]
      rfl
    · obtain ⟨-, hmore⟩ := hmore rest ss hmark hrest
      cases texts with
      | nil =>
        rw [String.intercalate_singleton]
        refine ⟨(hlexes _).1, ((hlexes rest).2.trans hmore).imp fun ts hts => ?_⟩
        obtain ⟨us, vs, rfl, hus, hvs⟩ := hts
        exact .passage hus hvs
      | cons s' texts =>
        rw [String.intercalate_cons_cons]
        simp only [String.toList_append, List.append_assoc]
        refine ⟨(hlexes _).1, ((hlexes _).2.trans (lexes_newline.trans hmore)).imp fun ts hts => ?_⟩
        obtain ⟨us, vs, rfl, hus, ws, xs, rfl, ⟨n, rfl, hn, -⟩, hxs⟩ := hts
        exact .passage hus (.blank hn hxs)

/-- A graph is written as its sections. -/
theorem lexes_write {g : Graph} (hblocks : ∀ b ∈ g.blocks, b.Parses)
    (hconnections : ∀ c ∈ g.connections, c.Fits) :
    ∃ text, write g = .ok text ∧ Unmarked text.toList ∧
      Lexes [.code none] text.toList (SpellsFile (passages g.kept)) [.code none] [] := by
  obtain ⟨texts, htexts, hlexes⟩ := lexes_blocks hblocks
  have hrest := lexes_connections hconnections
  generalize hgap : (if g.blocks.isEmpty || g.connections.isEmpty then "" else "\n") = gap
  refine ⟨String.intercalate "\n" texts ++ gap ++ String.join (g.connections.map connectionText),
    ?_, ?_⟩
  · unfold write
    rw [htexts, ← hgap]
    rfl
  · simp only [String.toList_append, List.append_assoc]
    split at hgap
    · subst hgap
      exact hlexes _ _ (unmarked_connections _) hrest
    · subst hgap
      refine hlexes _ _ (by rintro c ⟨⟩; decide) ((lexes_newline.trans hrest).imp fun ts hts => ?_)
      obtain ⟨us, vs, rfl, ⟨n, rfl, hn, -⟩, hvs⟩ := hts
      exact .blank hn hvs

end Graphs

end CypherBlocks.Document
