import CypherBlocks.Proofs.Readable

/-!
# Infinite numbers in the text of a graph

Infinite confidences can be written but not read.  The one above zero begins with a plus sign, which
begins no expression, so the file does not parse.  The one below zero is the negation of a name, and
there are no names to refer to, so its block cannot be read.
-/

namespace CypherBlocks.Config

open Parse

/-! ## 1. Problems stay reported -/

/-- An item of a body is parsed, and its problems are reported after those before it. -/
theorem parseBody_item (fuel : Nat) {closer : TokenKind} (hcloser : closer ≠ .identifier)
    (body : Body) (ps : List Problem) {c : Cursor} (hpeek : peekKind c = (.identifier, c)) :
    ∃ body' more, parseBody (fuel + 1) closer body ps c =
      parseBody fuel closer body' (ps ++ ((parseItem fuel c).1.2 ++ more))
        (parseItem fuel c).2 := by
  rw [parseBody]
  simp only [bind_apply, hpeek, hcloser.symm, if_false]
  cases (parseItem fuel c).1.1 with
  | argument a =>
    dsimp only
    split
    · exact ⟨body, [.attributeRedefined], by rw [List.append_assoc]⟩
    · exact ⟨_, [], by rw [List.append_nil]⟩
  | block b => exact ⟨_, [], by rw [List.append_nil]⟩
  | none => exact ⟨body, [], by rw [List.append_nil]⟩

theorem parseBody_reported (fuel : Nat) {closer : TokenKind} (hcloser : closer ≠ .identifier)
    (body : Body) {ps : List Problem} (hps : ps ≠ []) (c : Cursor) :
    (parseBody fuel closer body ps c).1.2 ≠ [] := by
  induction fuel generalizing body ps c with
  | zero => exact hps
  | succ fuel ih =>
    have hmore : ∀ more, ps ++ more ≠ [] := fun more h => hps (List.append_eq_nil_iff.mp h).1
    -- an item may report more; whatever else stands here ends the body or skips a token
    by_cases hitem : peekKind c = (.identifier, c)
    · obtain ⟨body', more, hstep⟩ := parseBody_item fuel hcloser body ps hitem
      rw [hstep]
      exact ih body' (hmore _) _
    · have hpeek : peekKind c = (c.next.1.kind, c) := rfl
      rw [parseBody]
      simp only [bind_apply]
      rw [hpeek] at hitem ⊢
      generalize c.next.1.kind = kind at hitem ⊢
      by_cases hclose : kind = closer
      · simp only [hclose, if_true]
        exact hps
      · simp only [hclose, if_false]
        cases kind with
        | newline => exact ih body hps _
        | identifier => exact absurd rfl hitem
        | _ => exact hmore _

/-- From some tokens on a parse reports a problem. -/
def Reports {α : Type} (p : Parse (Reported α)) (ts rest : List Token) : Prop :=
  ∀ done, (p ⟨ts ++ rest, done, [true], false⟩).1.2 ≠ []

/-! ## 2. A plus sign begins no value -/

/-- After a plus sign the parse is recovering, and has reported it. -/
theorem parseTerm_plus (fuel : Nat) {t : Token} (ht : t.kind = .plus) (rest : List Token)
    (done : Position) (newlines : List Bool) :
    parseTerm (fuel + 1) ⟨t :: rest, done, newlines, false⟩ =
      ((placeholder, [.invalidExpression]), ⟨t :: rest, done, newlines, true⟩) := by
  rw [parseTerm]
  simp only [bind_apply, peekKind_visible ht (by decide)]
  rfl

theorem isAstray_cons {c : Cursor} (hrecovering : c.recovering = true) (p : Problem)
    (ps : List Problem) : isAstray (p :: ps) c = (true, c) := by
  change (c.recovering && !(p :: ps).isEmpty, c) = _
  rw [hrecovering]
  rfl

/-- The levels of operators give up at once. -/
theorem parseLevel_astray {fuel : Nat} {c c' : Cursor} {e : Expr} {p : Problem}
    {ps : List Problem} (hrecovering : c'.recovering = true)
    (hpath : parsePath fuel c = ((e, p :: ps), c')) (levels : List (List (TokenKind × BinaryOp))) :
    parseLevel (fuel + 1 + levels.length) levels c = ((e, p :: ps), c') := by
  induction levels with
  | nil => exact hpath
  | cons ops tighter ih =>
    rw [List.length_cons, ← Nat.add_assoc, parseLevel]
    simp only [bind_apply, ih, isAstray_cons hrecovering]
    rfl

theorem parseExpr_plus (fuel : Nat) {t : Token} (ht : t.kind = .plus) (rest : List Token)
    (done : Position) (newlines : List Bool) :
    parseExpr (fuel + 1 + valueFuel) ⟨t :: rest, done, newlines, false⟩ =
      ((placeholder, [.invalidExpression]), ⟨t :: rest, done, newlines, true⟩) := by
  -- a plus sign is no step into a value, so the term is the whole path
  have hsteps : ∀ fuel e, parseSteps fuel e ⟨t :: rest, done, newlines, true⟩ = ((e, []),
      ⟨t :: rest, done, newlines, true⟩) := by
    intro fuel e
    have hpeek : peekKind ⟨t :: rest, done, newlines, true⟩ = (.plus,
        ⟨t :: rest, done, newlines, true⟩) := by
      have hnext : (Cursor.mk (t :: rest) done newlines true).next = (t, rest) := by
        change (Cursor.mk (t :: rest) done newlines false).next = _
        exact next_visible (by rw [ht]; decide)
      rw [peekKind_eq hnext, ht]
    cases fuel with
    | zero => rfl
    | succ fuel =>
      rw [parseSteps]
      simp only [bind_apply, hpeek]
      rfl
  have hpath : parsePath (fuel + 2) ⟨t :: rest, done, newlines, false⟩ =
      ((placeholder, [.invalidExpression]), ⟨t :: rest, done, newlines, true⟩) := by
    rw [parsePath]
    simp only [bind_apply, parseTerm_plus fuel ht, hsteps]
    rfl
  have hlevel := parseLevel_astray rfl hpath operatorLevels
  -- one unit of fuel for every level of operators
  change parseLevel (fuel + 9) operatorLevels _ = _ at hlevel
  change parseExpr (fuel + 9 + 1) _ = _
  rw [parseExpr]
  simp only [bind_apply, hlevel]
  rfl

/-- An argument whose value breaks off is reported, wherever the parse recovers. -/
theorem reports_of_astray {fuel : Nat} {assign : Token} (hassign : assign.kind = .assign)
    {ts rest : List Token} {e : Expr} {p : Problem} {ps : List Problem} {c : Cursor}
    (hexpr : parseExpr fuel ⟨ts ++ rest, assign.range.last, [true], false⟩ = ((e, p :: ps), c))
    (hrecovering : c.recovering = true) (name : Token) :
    Reports (parseAttribute fuel name false) (assign :: ts) rest := by
  intro done
  unfold parseAttribute
  simp only [List.cons_append, bind_apply, get_apply, read_visible hassign (by decide), hexpr,
    isAstray_cons hrecovering]
  exact List.cons_ne_nil p ps

theorem reports_parseAttribute {fuel : Nat} (hfuel : lineFuel < fuel) (rest : List Token)
    (name : Token) {assign plus : Token} (hassign : assign.kind = .assign)
    (hplus : plus.kind = .plus) : Reports (parseAttribute fuel name false) [assign, plus] rest := by
  obtain ⟨fuel, rfl⟩ : ∃ more, fuel = more + 1 + valueFuel :=
    ⟨fuel - 1 - valueFuel, by unfold lineFuel at hfuel; omega⟩
  exact reports_of_astray hassign (parseExpr_plus fuel hplus rest assign.range.last [true]) rfl name

/-! ## 3. Sections up to a plus sign -/

/-- Lines with arguments, up to a value that begins with a plus sign. -/
inductive BreaksInArguments : List Token → Prop where
  | here {name assign plus : Token} (names : name.kind = .identifier)
      (assigns : assign.kind = .assign) (breaks : plus.kind = .plus) :
      BreaksInArguments [name, assign, plus]
  | later {a : String × ArgumentValue} {ts us : List Token} (first : SpellsArgument a ts)
      (others : BreaksInArguments us) : BreaksInArguments (ts ++ us)

/-- Sections, up to a value that begins with a plus sign. -/
inductive BreaksInFile : List Token → Prop where
  | here {kind newline : Token} {labels : List String} {ts us : List Token}
      (names : kind.kind = .identifier) (labelled : SpellsLabels labels ts)
      (newline_kind : newline.kind = .newline) (body : BreaksInArguments us) :
      BreaksInFile (kind :: (ts ++ newline :: us))
  | blank {t : Token} {ts : List Token} (empty : t.kind = .newline) (others : BreaksInFile ts) :
      BreaksInFile (t :: ts)
  | later {s : Passage} {ts us : List Token} (names : (s.arguments.map (·.1)).Nodup)
      (first : SpellsPassage s ts) (others : BreaksInFile us) : BreaksInFile (ts ++ us)

section Breaks

variable {fuel : Nat} {ts : List Token}

theorem BreaksInArguments.ne_nil (h : BreaksInArguments ts) :
    ∃ t more, ts = t :: more ∧ t.kind = .identifier := by
  cases h with
  | here hname _ _ => exact ⟨_, _, rfl, hname⟩
  | later hfirst _ =>
    obtain ⟨t, more, rfl, ht⟩ := hfirst.ne_nil
    exact ⟨t, _, rfl, ht⟩

/-- An item with a problem is a problem of its body. -/
theorem reports_item {closer : TokenKind} (hcloser : closer ≠ .identifier) {t : Token}
    {more rest : List Token} (ht : t.kind = .identifier)
    (hitem : Reports (parseItem fuel) (t :: more) rest) (body : Body) (ps : List Problem) :
    Reports (parseBody (fuel + 1) closer body ps) (t :: more) rest := by
  intro done
  have hpeek : peekKind ⟨t :: (more ++ rest), done, [true], false⟩ = (.identifier,
      ⟨t :: (more ++ rest), done, [true], false⟩) :=
    peekKind_visible ht (by decide)
  obtain ⟨body', others, hstep⟩ := parseBody_item fuel hcloser body ps hpeek
  rw [List.cons_append, hstep]
  apply parseBody_reported fuel hcloser
  intro h
  simp only [List.append_eq_nil_iff] at h
  exact hitem done h.2.1

/-- After an item without problems the body goes on. -/
theorem reports_after {closer : TokenKind} (hcloser : closer ≠ .identifier) {t : Token}
    {more us rest : List Token} (ht : t.kind = .identifier) {item : Item}
    (hitem : Reads (parseItem fuel) [true] (t :: more) (us ++ rest) item)
    (hus : ∀ body ps, Reports (parseBody fuel closer body ps) us rest) (body : Body)
    (ps : List Problem) : Reports (parseBody (fuel + 1) closer body ps) (t :: more ++ us) rest := by
  intro done
  have hpeek : peekKind ⟨t :: (more ++ (us ++ rest)), done, [true], false⟩ =
      (.identifier, ⟨t :: (more ++ (us ++ rest)), done, [true], false⟩) :=
        peekKind_visible ht (by decide)
  obtain ⟨body', others, hstep⟩ := parseBody_item fuel hcloser body ps hpeek
  obtain ⟨done', hitem⟩ := hitem done
  rw [List.cons_append] at hitem
  rw [List.append_assoc, List.cons_append, hstep, hitem]
  exact hus body' _ done'

theorem reports_arguments (h : BreaksInArguments ts) (rest : List Token) (body : Body)
    (ps : List Problem) (hfuel : ts.length + lineFuel < fuel) :
    Reports (parseBody fuel .closeBrace body ps) ts rest := by
  have hcloser : TokenKind.closeBrace ≠ .identifier := by decide
  -- by induction on the lines before the plus sign
  induction h generalizing fuel body ps with
  | @here name assign plus hname hassign hplus =>
    simp only [List.length_cons, List.length_nil] at hfuel
    obtain ⟨fuel, rfl⟩ : ∃ more, fuel = more + 2 := ⟨fuel - 2, by omega⟩
    have hfuelValue : lineFuel < fuel := by omega
    apply reports_item hcloser hname
    intro done
    rw [parseItem]
    simp only [List.cons_append, List.nil_append, bind_apply, read_visible hname (by decide),
      peekKind_visible hassign (by decide)]
    exact reports_parseAttribute hfuelValue rest name hassign hplus name.range.last
  | @later a ts us hfirst hus ih =>
    rw [List.length_append] at hfuel
    obtain ⟨fuel, rfl⟩ : ∃ more, fuel = more + 1 := ⟨fuel - 1, by omega⟩
    obtain ⟨t, more, rfl, ht⟩ := hfirst.ne_nil
    obtain ⟨u, others, rfl, -⟩ := hus.ne_nil
    have hfuelItem : (t :: more).length + lineFuel < fuel := by
      simp only [List.length_cons] at hfuel ⊢
      omega
    have hfuelRest : (u :: others).length + lineFuel < fuel := by
      simp only [List.length_cons] at hfuel ⊢
      omega
    obtain ⟨b, -, hitem⟩ := reads_argument (u :: others ++ rest) hfirst hfuelItem
    exact reports_after hcloser ht hitem (fun body ps => ih body ps hfuelRest) body ps

/-- A section that breaks off is reported. -/
theorem reports_section {kind newline : Token} {labels : List String} {us : List Token}
    (hkind : kind.kind = .identifier) (hlabels : SpellsLabels labels ts)
    (hnewline : newline.kind = .newline) (hus : BreaksInArguments us) (rest : List Token)
    (hfuel : (ts ++ newline :: us).length + lineFuel ≤ fuel) :
    Reports (parseItem (fuel + 2)) (kind :: (ts ++ newline :: us)) rest := by
  intro done
  obtain ⟨t, more, hts, ht⟩ := hlabels.ne_nil
  have hlength : 0 < ts.length := by rw [hts]; exact Nat.succ_pos _
  rw [List.length_append, List.length_cons] at hfuel
  obtain ⟨fuel, rfl⟩ : ∃ more, fuel = more + 1 := ⟨fuel - 1, by omega⟩
  have hfuelLabels : ts.length < fuel + 1 := by omega
  have hfuelBody : us.length + lineFuel < fuel := by omega
  obtain ⟨done₁, hread⟩ :=
    reads_parseLabels [true] (newline :: (us ++ rest)) hlabels [] hfuelLabels kind.range.last
  have hbody := reports_arguments hus rest ⟨[], []⟩ [] hfuelBody newline.range.last
  have hblock : (parseBlock (fuel + 2) kind.text ⟨ts ++ newline :: (us ++ rest), kind.range.last,
      [true], false⟩).1.2 ≠ [] := by
    rw [parseBlock]
    simp only [bind_apply, hread, peekKind_newline hnewline,
      parseBody_newline hnewline (by decide : TokenKind.closeBrace ≠ .newline)]
    intro h
    simp only [pure_apply, List.append_eq_nil_iff] at h
    exact hbody h.1.2
  -- after its kind a section has a label in quotes or its brace
  rw [parseItem]
  rw [hts] at hblock ⊢
  simp only [List.cons_append, List.append_assoc] at hblock ⊢
  rcases ht with ht | ht
  · simp only [bind_apply, read_visible hkind (by decide), peekKind_visible ht (by decide)]
    exact hblock
  · simp only [bind_apply, read_visible hkind (by decide), peekKind_visible ht (by decide)]
    exact hblock

theorem reports_file (h : BreaksInFile ts) (rest : List Token) (body : Body) (ps : List Problem)
    (hfuel : ts.length + lineFuel + 1 < fuel) : Reports (parseBody fuel .eof body ps) ts rest := by
  have hcloser : TokenKind.eof ≠ .identifier := by decide
  -- by induction on the sections before the plus sign
  induction h generalizing fuel body ps with
  | @here kind newline labels ts us hkind hlabels hnewline hus =>
    rw [List.length_cons] at hfuel
    obtain ⟨fuel, rfl⟩ : ∃ more, fuel = more + 3 := ⟨fuel - 3, by omega⟩
    have hfuelSection : (ts ++ newline :: us).length + lineFuel ≤ fuel := by omega
    exact reports_item hcloser hkind (reports_section hkind hlabels hnewline hus rest hfuelSection)
      body ps
  | @blank t ts ht _ ih =>
    intro done
    rw [List.length_cons] at hfuel
    obtain ⟨fuel, rfl⟩ : ∃ more, fuel = more + 1 := ⟨fuel - 1, by omega⟩
    have hfuelRest : ts.length + lineFuel + 1 < fuel := by omega
    rw [List.cons_append, parseBody_newline ht (by decide)]
    exact ih body ps hfuelRest _
  | @later s ts us hnames hfirst _ ih =>
    obtain ⟨t, more, hts, ht⟩ := hfirst.exists_cons
    have hlength : 0 < ts.length := by rw [hts]; exact Nat.succ_pos _
    rw [List.length_append] at hfuel
    obtain ⟨fuel, rfl⟩ : ∃ more, fuel = more + 1 := ⟨fuel - 1, by omega⟩
    have hfuelFirst : ts.length + lineFuel < fuel := by omega
    have hfuelRest : us.length + lineFuel + 1 < fuel := by omega
    obtain ⟨b, -, hitem⟩ := reads_passage (us ++ rest) hfirst hnames hfuelFirst
    rw [hts] at hitem ⊢
    exact reports_after hcloser ht hitem (fun body ps => ih body ps hfuelRest) body ps

/-- A text that breaks off does not parse, whatever stands after it. -/
theorem parseFile_breaks {cs rest : List Char} {modes : List LexMode}
    (h : Lexes [.code none] cs BreaksInFile modes rest)
    (hmark : dropByteOrderMark (cs.map .char) = cs.map .char) :
    (parseFile (cs.map .char)).2 ≠ [] := by
  obtain ⟨ts, q, htokens, hbreaks, -⟩ := h Position.start
  -- what comes after the plus sign may hold any tokens
  generalize htail : tokensFrom modes q (rest.map .char) = tail at htokens
  have hfuel : ts.length + lineFuel + 1 < fuelPerToken * ((ts ++ tail).length + 2) := by
    rw [List.length_append]
    unfold lineFuel valueFuel fuelPerToken
    omega
  have hreports := reports_file hbreaks tail ⟨[], []⟩ [] hfuel Position.start
  unfold parseFile tokens
  rw [hmark, htokens]
  intro h
  exact hreports (List.append_eq_nil_iff.mp h).2

end Breaks

theorem parse_reported {s : List Text.Symbol} (h : (parseFile s).2 ≠ []) :
    ∃ p, parse .native s = .error p := by
  unfold parse
  dsimp only
  split
  · rename_i body hparse
    rw [hparse] at h
    exact absurd rfl h
  · rename_i p _ _
    exact ⟨p, rfl⟩

end CypherBlocks.Config

namespace CypherBlocks

open Config

/-! ## 4. The infinite number above zero -/

/-- A readable value is that of an expression unless it is the infinite number above zero. -/
theorem ArgumentValue.Readable.parses {v : ArgumentValue} (h : v.Readable)
    (hv : v ≠ .real (.infinite false)) : v.Parses := by
  cases v with
  | real x =>
    rcases h with hproper | ⟨neg, rfl⟩
    · exact .inl hproper
    · cases neg with
      | false => exact absurd rfl hv
      | true => exact .inr rfl
  | _ => exact .inl h

theorem ArgumentValue.Readable.literal_eq {v : ArgumentValue} (h : v.Readable) :
    ∃ s, Document.literal v = .ok s := by
  cases v with
  | real x =>
    cases x with
    | finite neg m e => exact ⟨_, rfl⟩
    | infinite neg => exact ⟨_, rfl⟩
    | nan =>
      rcases h with hproper | ⟨neg, h⟩
      · cases hproper
      · cases h
  | text s => exact ⟨_, rfl⟩
  | whole n => exact ⟨_, rfl⟩
  | texts ss => exact ⟨_, rfl⟩

namespace Document

theorem lexes_plus {braces : Option Nat} {outer : List LexMode} {rest : List Char} :
    Lexes (.code braces :: outer) ('+' :: rest) (IsToken .plus "+") (.code braces :: outer) rest :=
  lexes_sign (fun _ => rfl) rfl

theorem lexes_positiveInfinityLine (width : Nat) {name : String} (hname : isWord name = true)
    (rest : List Char) :
    ∃ rest', Lexes [.code none] ((argumentLine width name "+Inf").toList ++ rest) BreaksInArguments
      [.code none] rest' := by
  rw [toList_argumentLine]
  simp only [List.append_assoc, List.cons_append, List.nil_append]
  have hsign : ∀ c ∈ ('=' :: ' ' :: ("+Inf".toList ++ '\n' :: rest)).head?,
      isBlank (.char c) = false := by
    rintro c ⟨⟩
    rfl
  have hplus : Lexes [.code none] (' ' :: ("+Inf".toList ++ '\n' :: rest)) _ [.code none]
      ("Inf".toList ++ '\n' :: rest) :=
    (lexes_blank rfl).trans_nothing lexes_plus
  have hpadding :=
    (lexes_blanks (n := width - name.length + 1) hsign).trans_nothing (lexes_assign.trans hplus)
  have hline := (lexes_blanks (n := 2) (isBlank_head?_word hname _)).trans_nothing
    ((lexes_word hname (isIdentifierRest_head?_blank _)).trans hpadding)
  refine ⟨_, hline.imp fun ts hts => ?_⟩
  obtain ⟨us, vs, rfl, ⟨t, rfl, ht, -⟩, ws, xs, rfl, ⟨a, rfl, ha, -⟩, ⟨p, rfl, hp, -⟩⟩ := hts
  exact .here ht ha hp

/-- The line of an argument, if its value can be written. -/
def lineOf (width : Nat) (a : String × ArgumentValue) : Except WriteError String :=
  do return argumentLine width a.1 (← literal a.2)

theorem lexes_lines_break (width : Nat) {arguments : List (String × ArgumentValue)}
    (h : ∀ a ∈ arguments, isWord a.1 = true ∧ a.2.Readable ∧ a.2.isZero = false)
    (hbreak : ∃ a ∈ arguments, a.2 = .real (.infinite false)) {lines : List String}
    (hlines : arguments.mapM (lineOf width) = .ok lines) (rest : List Char) :
    ∃ rest', Lexes [.code none] ((String.join lines).toList ++ rest) BreaksInArguments
      [.code none] rest' := by
  induction arguments generalizing lines with
  | nil =>
    obtain ⟨a, ha, -⟩ := hbreak
    cases ha
  | cons a arguments ih =>
    obtain ⟨name, v⟩ := a
    obtain ⟨⟨hname, hreadable, hzero⟩, h⟩ := List.forall_mem_cons.mp h
    rw [List.mapM_cons] at hlines
    obtain ⟨line, hline, hlines⟩ := bind_eq_ok_iff.mp hlines
    obtain ⟨more, hmore, hlines⟩ := bind_eq_ok_iff.mp hlines
    obtain ⟨s, hs, hline⟩ := bind_eq_ok_iff.mp hline
    cases hline
    cases hlines
    rw [String.join_cons, String.toList_append, List.append_assoc]
    -- the first line that breaks off ends the argument; those before it are lines as usual
    by_cases hv : v = .real (.infinite false)
    · subst hv
      cases hs
      exact lexes_positiveInfinityLine width hname _
    · obtain ⟨a, ha, hinfinite⟩ := hbreak
      have hrest : ∃ a ∈ arguments, a.2 = .real (.infinite false) := by
        rcases List.mem_cons.mp ha with rfl | ha
        · exact absurd hinfinite hv
        · exact ⟨a, ha, hinfinite⟩
      obtain ⟨rest', hlexes⟩ := ih h hrest hmore
      obtain ⟨s', hs', hfirst⟩ := lexes_argumentLine width hname (hreadable.parses hv) hzero
      obtain rfl : s = s' := Except.ok.inj (hs.symm.trans hs')
      refine ⟨rest', ((hfirst _).trans hlexes).imp fun ts hts => ?_⟩
      obtain ⟨us, vs, rfl, hus, hvs⟩ := hts
      exact .later hus hvs

/-- The text of a block is its head, the lines of its arguments, and a brace. -/
theorem blockText_eq_ok_iff {id label : String} {p : Params} {s : String} :
    blockText ⟨id, label, some p⟩ = .ok s ↔
      ∃ lines, (writtenArguments label p).mapM
        (lineOf (((writtenArguments label p).map (·.1.length)).foldl max 0)) = .ok lines ∧
        s = sectionHead blockForm.kind p.kind.tag id ++ String.join lines ++ sectionEnd := by
  change ((writtenArguments label p).mapM
    (lineOf (((writtenArguments label p).map (·.1.length)).foldl max 0)) >>= fun lines =>
    Except.ok (sectionHead blockForm.kind p.kind.tag id ++ String.join lines ++ sectionEnd)) =
      .ok s ↔ _
  rw [bind_eq_ok_iff]
  simp only [Except.ok.injEq, eq_comm]

end Document

/-- A block whose text is made of normalised texts and of numbers that may be infinite. -/
structure Block.Writes (b : Block) : Prop where
  params : ∃ p ∈ b.params, ∀ a ∈ p.arguments, a.2.Readable
  id : Text.normalize b.id = b.id
  label : Text.normalize b.label = b.label

/-- A block that asks for an infinite confidence above zero. -/
def Block.Breaks (b : Block) : Prop :=
  ∃ p ∈ b.params, ∃ a ∈ p.arguments, a.2 = .real (.infinite false)

theorem Block.Writes.parses {b : Block} (h : b.Writes) (hb : ¬b.Breaks) : b.Parses := by
  obtain ⟨⟨p, hp, hparams⟩, hid, hlabel⟩ := h
  exact ⟨⟨p, hp, fun a ha => (hparams a ha).parses fun hinfinite => hb ⟨p, hp, a, ha, hinfinite⟩⟩,
    hid, hlabel⟩

namespace Document

theorem lexes_blockText_break {id label : String} {p : Params}
    (h : Block.Writes ⟨id, label, some p⟩) (hbreak : Block.Breaks ⟨id, label, some p⟩)
    {s : String} (hs : blockText ⟨id, label, some p⟩ = .ok s) (rest : List Char) :
    ∃ rest', Lexes [.code none] (s.toList ++ rest) BreaksInFile [.code none] rest' := by
  obtain ⟨⟨p', hp', hparams⟩, hid, hlabel⟩ := h
  cases hp'
  obtain ⟨p', hp', a, ha, hinfinite⟩ := hbreak
  cases hp'
  obtain ⟨lines, hlines, rfl⟩ := blockText_eq_ok_iff.mp hs
  have hwritten : ∀ a ∈ writtenArguments label p, isWord a.1 = true ∧ a.2.Readable ∧
      a.2.isZero = false := by
    intro a ha
    obtain ⟨hname, hzero⟩ := isWord_of_mem_writtenArguments ha
    have hreadable : a.2.Readable :=
      forall_mem_writtenArguments (P := fun a => a.2.Readable) hlabel hparams a ha
    exact ⟨hname, hreadable, hzero⟩
  have hmem : a ∈ writtenArguments label p := mem_writtenArguments ha (by rw [hinfinite]; rfl)
  simp only [String.toList_append, List.append_assoc]
  -- all lines up to the infinite number can be read, and there the text breaks off
  obtain ⟨rest', hlexes⟩ :=
    lexes_lines_break _ hwritten ⟨a, hmem, hinfinite⟩ hlines (sectionEnd.toList ++ rest)
  refine ⟨rest', ((lexes_sectionHead isWord_blockForm (normalize_tag p.kind) hid _).trans
    hlexes).imp fun ts hts => ?_⟩
  obtain ⟨us, vs, rfl, ⟨t, ls, n, rfl, ht, -, hls, hn⟩, hvs⟩ := hts
  have hbreaks := BreaksInFile.here ht hls hn hvs
  simpa using hbreaks

theorem toList_intercalate_cons (separator s : String) (more : List String) :
    ∃ rest, (String.intercalate separator (s :: more)).toList = s.toList ++ rest := by
  cases more with
  | nil => exact ⟨[], by rw [String.intercalate_singleton, List.append_nil]⟩
  | cons s' more =>
    rw [String.intercalate_cons_cons]
    simp only [String.toList_append, List.append_assoc]
    exact ⟨_, rfl⟩

/-- The text of blocks up to the first that breaks off. -/
theorem lexes_blocks_break {bs : List Block} (h : ∀ b ∈ bs, b.Writes)
    (hbreak : ∃ b ∈ bs, b.Breaks) {texts : List String} (htexts : bs.mapM blockText = .ok texts)
    (rest : List Char) :
    ∃ rest', Lexes [.code none] ((String.intercalate "\n" texts).toList ++ rest) BreaksInFile
      [.code none] rest' := by
  induction bs generalizing texts with
  | nil =>
    obtain ⟨b, hb, -⟩ := hbreak
    cases hb
  | cons b bs ih =>
    obtain ⟨hb, hwrites⟩ := List.forall_mem_cons.mp h
    obtain ⟨id, label, params⟩ := b
    obtain ⟨p, rfl : params = some p, -⟩ := hb.params
    rw [List.mapM_cons] at htexts
    obtain ⟨s, hs, htexts⟩ := bind_eq_ok_iff.mp htexts
    obtain ⟨more, hmore, htexts⟩ := bind_eq_ok_iff.mp htexts
    cases htexts
    -- the same for the first block that breaks off
    by_cases hbreaks : Block.Breaks ⟨id, label, some p⟩
    · obtain ⟨gap, hgap⟩ := toList_intercalate_cons "\n" s more
      rw [hgap, List.append_assoc]
      exact lexes_blockText_break hb hbreaks hs _
    · obtain ⟨c, hc, hcbreaks⟩ := hbreak
      have hlater : ∃ c ∈ bs, c.Breaks := by
        rcases List.mem_cons.mp hc with rfl | hc
        · exact absurd hcbreaks hbreaks
        · exact ⟨c, hc, hcbreaks⟩
      obtain ⟨rest', hlexes⟩ := ih hwrites hlater hmore
      obtain ⟨s', hs', hfirst⟩ := lexes_blockText (hb.parses hbreaks)
      obtain rfl : s = s' := Except.ok.inj (hs.symm.trans hs')
      -- between blocks there is an empty line
      cases more with
      | nil =>
        rw [String.intercalate_singleton]
        refine ⟨rest', ((hfirst rest).2.trans hlexes).imp fun ts hts => ?_⟩
        obtain ⟨us, vs, rfl, hus, hvs⟩ := hts
        exact .later (nodup_writtenArguments label p.kept) hus hvs
      | cons s' more =>
        rw [String.intercalate_cons_cons]
        simp only [String.toList_append, List.append_assoc] at hlexes ⊢
        refine ⟨rest', ((hfirst _).2.trans (lexes_newline.trans hlexes)).imp fun ts hts => ?_⟩
        obtain ⟨us, vs, rfl, hus, ws, xs, rfl, ⟨n, rfl, hn, -⟩, hxs⟩ := hts
        exact .later (nodup_writtenArguments label p.kept) hus (.blank hn hxs)

theorem unmarked_blocks {bs : List Block} (h : ∀ b ∈ bs, b.Writes) (hne : bs ≠ [])
    {texts : List String} (htexts : bs.mapM blockText = .ok texts) (rest : List Char) :
    Unmarked ((String.intercalate "\n" texts).toList ++ rest) := by
  obtain ⟨⟨id, label, params⟩, bs, rfl⟩ := List.exists_cons_of_ne_nil hne
  obtain ⟨p, rfl : params = some p, -⟩ := (h _ List.mem_cons_self).params
  rw [List.mapM_cons] at htexts
  obtain ⟨s, hs, htexts⟩ := bind_eq_ok_iff.mp htexts
  obtain ⟨more, -, htexts⟩ := bind_eq_ok_iff.mp htexts
  cases htexts
  obtain ⟨lines, -, rfl⟩ := blockText_eq_ok_iff.mp hs
  obtain ⟨gap, hgap⟩ :=
    toList_intercalate_cons "\n" (sectionHead blockForm.kind p.kind.tag id ++ String.join lines ++
      sectionEnd) more
  rw [hgap]
  simp only [String.toList_append, List.append_assoc]
  exact unmarked_section 'b' (by decide) (by decide) _

/-- The text of a graph with an infinite confidence above zero does not parse. -/
theorem parse_write_breaks {g : Graph} (h : ∀ b ∈ g.blocks, b.Writes)
    (hbreak : ∃ b ∈ g.blocks, b.Breaks) {text : String} (htext : write g = .ok text)
    {file : String} (hfile : file.endsWith nativeExtension = true) :
    ∃ p, Config.parse (formatOf file) (Text.symbolsOf text) = .error p := by
  have hne : g.blocks ≠ [] := by
    obtain ⟨b, hb, -⟩ := hbreak
    exact List.ne_nil_of_mem hb
  obtain ⟨texts, htexts, htext⟩ := bind_eq_ok_iff.mp htext
  have hmark := unmarked_blocks h hne htexts
  obtain ⟨rest', hlexes⟩ := lexes_blocks_break h hbreak htexts
    ((if g.blocks.isEmpty || g.connections.isEmpty then ""
      else "\n").toList ++ (String.join (g.connections.map connectionText)).toList)
  have hreports : (parseFile (text.toList.map .char)).2 ≠ [] := by
    cases htext
    simp only [String.toList_append, List.append_assoc]
    exact parseFile_breaks hlexes (hmark _).dropByteOrderMark_eq
  rw [formatOf_native hfile]
  exact parse_reported hreports

/-! ## 5. The infinite number below zero -/

theorem decodeArguments_values {d d' : Decoded} {as : List Argument}
    (h : (decodeArguments d as).2 = .ok d') : ∀ a ∈ as, ∃ v, a.value = .ok v := by
  induction as generalizing d with
  | nil => simp
  | cons a as ih =>
    rw [decodeArguments] at h
    dsimp only at h
    split at h
    · cases h
    · rename_i d₁ hd₁
      refine List.forall_mem_cons.mpr ⟨?_, ih h⟩
      unfold decodeArgument at hd₁
      split at hd₁
      · cases hd₁
      · rename_i v hv
        exact ⟨v, hv⟩

/-- Blocks can be read only if all their arguments have values. -/
theorem readBlocks_values {sections : List (String × String × Content)} {bs : List Block}
    (h : (readBlocks sections).2 = .ok bs) :
    ∀ s ∈ sections, ∃ as, s.2.2.arguments = .ok as ∧ ∀ a ∈ as, ∃ v, a.value = .ok v := by
  induction sections generalizing bs with
  | nil => simp
  | cons s rest ih =>
    obtain ⟨tag, id, content⟩ := s
    rw [readBlocks] at h
    dsimp only at h
    split at h
    · cases h
    · rename_i b hb
      obtain ⟨bs', hbs, -⟩ := map_eq_ok_iff.mp h
      refine List.forall_mem_cons.mpr ⟨?_, ih hbs⟩
      unfold readBlock at hb
      split at hb
      · cases hb
      · split at hb
        · cases hb
        · dsimp only at hb
          split at hb
          · cases hb
          · rename_i d hd
            unfold decodeBody at hd
            split at hd
            · cases hd
            · rename_i as has
              refine ⟨as, has, fun a ha => ?_⟩
              -- arguments are taken in the order of their names, and all of them are
              exact decodeArguments_values hd a ((List.mergeSort_perm as _).mem_iff.mpr ha)

theorem value_negativeInfinity {e : Expr} {ts : List Token}
    (h : Spells (.real (.infinite true)) e ts) : e.value = .error .variablesNotAllowed := by
  cases h with
  | real _ _ hfinite => cases hfinite
  | negativeInfinity =>
    have hname : eval Scope.empty (.variable "Inf") = (undecided, [.variablesNotAllowed]) := by
      rw [eval]
      rfl
    -- the operand is unknown, so it converts, and the problem with the name is the one that shows
    have hconvert : undecided.convert .number = .ok (.unknown .number) := by
      unfold Value.convert undecided
      rw [if_neg (by simp [Value.ty, BEq.beq, Ty.same]), if_pos (by simp [Value.ty, Ty.converts]),
        Value.convertTo]
      all_goals simp
    unfold Expr.value
    rw [eval, hname, evalUnary]
    simp only [hconvert]

/-- Sections that can be read hold no infinite number below zero. -/
theorem ne_negativeInfinity_of_readBlocks {bs bs' : List Block} {cs : List Config.Block}
    (h : List.Forall₂ Config.Block.Says cs (blockPassages bs))
    (hread : (readBlocks (cs.map outlined)).2 = .ok bs') :
    ∀ b ∈ bs, ∀ p ∈ b.params, ∀ a ∈ p.arguments, a.2 ≠ .real (.infinite true) := by
  intro b hb p hp a ha hinfinite
  have hpassage : blockPassage b.id b.label p ∈ blockPassages bs :=
    List.mem_filterMap.mpr ⟨b, hb, by rw [Option.mem_def.mp hp]; rfl⟩
  obtain ⟨c, hc, hsays⟩ := exists_mem_of_forall₂ h.flip hpassage
  have hwritten : a ∈ writtenArguments b.label p := mem_writtenArguments ha (by rw [hinfinite]; rfl)
  obtain ⟨t, ht, -, ts, hspells⟩ := exists_mem_of_forall₂ hsays.attributes.flip hwritten
  obtain ⟨as, has, hvalues⟩ := readBlocks_values hread _ (List.mem_map_of_mem hc)
  have harguments := native_arguments hsays.blocks
  obtain rfl : _ = as := Except.ok.inj (harguments.symm.trans has)
  obtain ⟨v, hv⟩ := hvalues _ (List.mem_map_of_mem ht)
  rw [hinfinite] at hspells
  rw [value_negativeInfinity hspells] at hv
  cases hv

end Document

end CypherBlocks
