import CypherBlocks.Proofs.ConfigValues
import CypherBlocks.Config.Source
import Mathlib.Data.List.Forall2

/-!
# Reading sections

What the parser makes of the tokens of a file of sections, each with labels in quotes and one
argument a line: one block for each section, in order, with its labels and the arguments' names and
expressions, and no problem.
-/

namespace CypherBlocks.Config

open Parse

/-! ## 1. Sections and their tokens -/

/-- A section to be written: its kind, its labels and its arguments. -/
structure Passage where
  kind : String
  labels : List String
  arguments : List (String × ArgumentValue)

/-- An attribute with the name and the value of an argument. -/
def Attribute.Says (a : Attribute) (argument : String × ArgumentValue) : Prop :=
  a.name = argument.1 ∧ ∃ ts, Spells argument.2 a.expr ts

/-- A block with the labels and the arguments of a section, and nothing else. -/
structure Block.Says (b : Block) (s : Passage) : Prop where
  kind : b.kind = s.kind
  labels : b.labels = s.labels
  attributes : List.Forall₂ Attribute.Says b.body.attributes s.arguments
  blocks : b.body.blocks = []

/-- The labels of a section and the brace after them. -/
inductive SpellsLabels : List String → List Token → Prop where
  | brace {t : Token} (opens : t.kind = .openBrace) : SpellsLabels [] [t]
  | label {s : String} {ss : List String} {ts us : List Token} (text : SpellsQuoted s ts)
      (others : SpellsLabels ss us) : SpellsLabels (s :: ss) (ts ++ us)

/-- A line with an argument. -/
inductive SpellsArgument : String × ArgumentValue → List Token → Prop where
  | line {name assign newline : Token} {v : ArgumentValue} {e : Expr} {ts : List Token}
      (names : name.kind = .identifier) (assigns : assign.kind = .assign) (value : Spells v e ts)
      (ends : newline.kind = .newline) :
      SpellsArgument (name.text, v) (name :: assign :: (ts ++ [newline]))

/-- Lines with arguments and the brace after them. -/
inductive SpellsArguments : List (String × ArgumentValue) → List Token → Prop where
  | brace {t : Token} (closes : t.kind = .closeBrace) : SpellsArguments [] [t]
  | argument {a : String × ArgumentValue} {as : List (String × ArgumentValue)}
      {ts us : List Token} (first : SpellsArgument a ts) (others : SpellsArguments as us) :
      SpellsArguments (a :: as) (ts ++ us)

/-- A whole section with the end of its last line. -/
inductive SpellsPassage : Passage → List Token → Prop where
  | lines {kind newline newline' : Token} {labels : List String}
      {arguments : List (String × ArgumentValue)} {ts us : List Token}
      (names : kind.kind = .identifier) (labelled : SpellsLabels labels ts)
      (newline_kind : newline.kind = .newline) (body : SpellsArguments arguments us)
      (newline_kind' : newline'.kind = .newline) :
      SpellsPassage ⟨kind.text, labels, arguments⟩ (kind :: (ts ++ newline :: (us ++ [newline'])))

theorem SpellsPassage.exists_cons {s : Passage} {ts : List Token} (h : SpellsPassage s ts) :
    ∃ t more, ts = t :: more ∧ t.kind = .identifier := by
  obtain ⟨hkind, -, -, -, -⟩ := h
  exact ⟨_, _, rfl, hkind⟩

/-- A file of sections, with blank lines anywhere between them. -/
inductive SpellsFile : List Passage → List Token → Prop where
  | nil : SpellsFile [] []
  | blank {ss : List Passage} {t : Token} {ts : List Token} (empty : t.kind = .newline)
      (others : SpellsFile ss ts) : SpellsFile ss (t :: ts)
  | passage {s : Passage} {ss : List Passage} {ts us : List Token} (first : SpellsPassage s ts)
      (others : SpellsFile ss us) : SpellsFile (s :: ss) (ts ++ us)

/-! ## 2. Labels -/

section Labels

variable {ts : List Token} {fuel : Nat}

theorem reads_parseLabel (newlines : List Bool) (rest : List Token) {body : List Token}
    (hkind : ∀ t ∈ body, t.kind = .quotedText) (hsound : ∀ t ∈ body, (tokenText t).2 = [])
    {last : Token} (hlast : last.kind = .closeQuote) (cs : List Char) (hfuel : body.length < fuel) :
    Reads (parseLabel fuel cs []) newlines (body ++ [last]) rest
      (String.ofList (cs ++ body.flatMap fun t => (tokenText t).1)) := by
  induction body generalizing fuel cs with
  | nil =>
    intro done
    obtain ⟨fuel, rfl⟩ := Nat.exists_eq_add_one.mpr (Nat.zero_lt_of_lt hfuel)
    refine ⟨last.range.last, ?_⟩
    rw [parseLabel]
    simp only [bind_apply, List.nil_append, List.singleton_append,
      read_visible hlast (by decide), hlast]
    simp [pure_apply]
  | cons t body ih =>
    intro done
    obtain ⟨fuel, rfl⟩ := Nat.exists_eq_add_one.mpr (Nat.zero_lt_of_lt hfuel)
    obtain ⟨ht, hkind⟩ := List.forall_mem_cons.mp hkind
    obtain ⟨hok, hsound⟩ := List.forall_mem_cons.mp hsound
    have hfuel : body.length < fuel := by simpa using hfuel
    obtain ⟨done', hmore⟩ := ih hkind hsound (cs ++ (tokenText t).1) hfuel t.range.last
    refine ⟨done', ?_⟩
    rw [parseLabel]
    simp only [bind_apply, List.cons_append, read_visible ht (by decide), ht]
    simpa [hok] using hmore

theorem reads_parseLabels (newlines : List Bool) (rest : List Token) {ls : List String}
    (h : SpellsLabels ls ts) (labels : List String) (hfuel : ts.length < fuel) :
    Reads (parseLabels fuel labels []) newlines ts rest (some (labels ++ ls)) := by
  -- by induction on the labels, with those already read in front
  induction h generalizing fuel labels with
  | @brace t ht =>
    intro done
    obtain ⟨fuel, rfl⟩ := Nat.exists_eq_add_one.mpr (Nat.zero_lt_of_lt hfuel)
    have hpeek : peek ⟨t :: rest, done, newlines, false⟩ =
        (t, ⟨t :: rest, done, newlines, false⟩) :=
      peek_eq (next_visible (by rw [ht]; decide))
    refine ⟨t.range.last, ?_⟩
    rw [parseLabels]
    simp only [bind_apply, List.singleton_append, hpeek, ht, read_visible ht (by decide)]
    simp [pure_apply]
  | @label s ss ts us hs hus ih =>
    intro done
    obtain ⟨fuel, rfl⟩ := Nat.exists_eq_add_one.mpr (Nat.zero_lt_of_lt hfuel)
    obtain ⟨first, body, last, rfl, hfirst, hbody, hlast⟩ := hs
    simp only [List.length_append, List.length_cons, List.length_nil] at hfuel
    have hfuelBody : body.length < fuel := by omega
    have hfuelRest : us.length < fuel := by omega
    have hlabel : String.ofList ([] ++ body.flatMap fun t => (tokenText t).1) = s := by
      rw [List.nil_append, hbody.text, String.ofList_toList]
    have hpeek : ∀ more, peek ⟨first :: more, done, newlines, false⟩ = (first,
        ⟨first :: more, done, newlines, false⟩) :=
      fun more => peek_eq (next_visible (by rw [hfirst]; decide))
    obtain ⟨done₁, hread⟩ :=
      reads_parseLabel newlines (us ++ rest) hbody.kind hbody.sound hlast [] hfuelBody
        first.range.last
    obtain ⟨done₂, hmore⟩ := ih (labels ++ [s]) hfuelRest done₁
    refine ⟨done₂, ?_⟩
    rw [hlabel] at hread
    rw [parseLabels]
    simp only [List.append_assoc, List.cons_append, List.nil_append] at hread hmore ⊢
    simp only [bind_apply, hpeek, hfirst, read_visible hfirst (by decide), hread, hmore]

end Labels

/-! ## 3. Arguments -/

section Lines

variable {ts rest : List Token} {t : Token} {done : Position} {fuel : Nat}

theorem get_apply (c : Cursor) : (get : Parse Cursor) c = (c, c) := rfl

theorem peekKind_newline (h : t.kind = .newline) :
    peekKind ⟨t :: rest, done, [true], false⟩ = (.newline, ⟨t :: rest, done, [true], false⟩) := by
  rw [peekKind_eq (next_newline h rfl), h]

theorem read_newline (h : t.kind = .newline) :
    read ⟨t :: rest, done, [true], false⟩ = (t, ⟨rest, t.range.last, [true], false⟩) :=
  read_eq (next_newline h rfl)

/-- The fuel that reading a line needs on top of one for each token. -/
def lineFuel : Nat := 2 * valueFuel

/-- The value of an argument up to the end of its line. Where the attribute stands follows from its
own tokens. -/
theorem reads_parseAttribute (rest : List Token) (name : Token) {assign newline : Token}
    {v : ArgumentValue} {e : Expr} (hassign : assign.kind = .assign) (hvalue : Spells v e ts)
    (hnewline : newline.kind = .newline) (hfuel : ts.length + lineFuel < fuel) :
    ∃ a : Attribute, a.Says (name.text, v) ∧
      Reads (parseAttribute fuel name false) [true] (assign :: (ts ++ [newline])) rest a := by
  have hends : EndsValue [true] (newline :: rest) :=
    ⟨newline, rest, rfl, .inr (.inr ⟨hnewline, rfl⟩)⟩
  obtain ⟨done₁, hexpr⟩ := hvalue.reads hends hfuel assign.range.last
  refine ⟨⟨name.text, e, ⟨name.range.first, done₁⟩⟩, ⟨rfl, ts, hvalue⟩, fun done =>
    ⟨newline.range.last, ?_⟩⟩
  unfold parseAttribute
  simp only [List.cons_append, List.append_assoc, List.nil_append, bind_apply, get_apply,
    read_visible hassign (by decide), hexpr, isAstray_nil, Bool.false_eq_true, if_false,
    peekKind_newline hnewline, read_newline hnewline]
  rfl

/-- A line with an argument is read as an attribute. -/
theorem reads_argument (rest : List Token) {argument : String × ArgumentValue}
    (h : SpellsArgument argument ts) (hfuel : ts.length + lineFuel < fuel) :
    ∃ a : Attribute, a.Says argument ∧ Reads (parseItem fuel) [true] ts rest (.argument a) := by
  obtain @⟨name, assign, newline, v, e, ts, hname, hassign, hvalue, hnewline⟩ := h
  simp only [List.length_cons, List.length_append, List.length_nil] at hfuel
  obtain ⟨fuel, rfl⟩ : ∃ more, fuel = more + 1 := ⟨fuel - 1, by omega⟩
  have hfuelValue : ts.length + lineFuel < fuel := by omega
  obtain ⟨a, hgiven, hreads⟩ := reads_parseAttribute rest name hassign hvalue hnewline hfuelValue
  refine ⟨a, hgiven, fun done => ?_⟩
  obtain ⟨done', hread⟩ := hreads name.range.last
  refine ⟨done', ?_⟩
  rw [parseItem]
  simp only [List.cons_append, List.append_assoc, List.nil_append] at hread ⊢
  simp only [bind_apply, read_visible hname (by decide), peekKind_visible hassign (by decide),
    hread]
  rfl

theorem SpellsArgument.ne_nil {argument : String × ArgumentValue} (h : SpellsArgument argument ts) :
    ∃ t more, ts = t :: more ∧ t.kind = .identifier := by
  obtain ⟨hname, -, -, -⟩ := h
  exact ⟨_, _, rfl, hname⟩

/-- Lines with arguments of different names add an attribute each to the body, up to the closing
brace. -/
theorem reads_arguments (rest : List Token) {arguments : List (String × ArgumentValue)}
    (h : SpellsArguments arguments ts) (body : Body)
    (hnames : ((body.attributes.map (·.name)) ++ arguments.map (·.1)).Nodup)
    (hfuel : ts.length + lineFuel < fuel) :
    ∃ as : List Attribute, List.Forall₂ Attribute.Says as arguments ∧
      Reads (parseBody fuel .closeBrace body []) [true] ts rest { body with attributes :=
        body.attributes ++ as } := by
  -- by induction on the lines, with the attributes already read in the body
  induction h generalizing fuel body with
  | @brace t ht =>
    obtain ⟨fuel, rfl⟩ := Nat.exists_eq_add_one.mpr (Nat.zero_lt_of_lt hfuel)
    refine ⟨[], .nil, fun done => ⟨t.range.last, ?_⟩⟩
    rw [parseBody]
    simp only [List.singleton_append, bind_apply, peekKind_visible ht (by decide), if_true,
      read_visible ht (by decide)]
    simp [pure_apply]
  | @argument argument arguments ts us hfirst hus ih =>
    obtain ⟨fuel, rfl⟩ := Nat.exists_eq_add_one.mpr (Nat.zero_lt_of_lt hfuel)
    rw [List.length_append] at hfuel
    obtain ⟨t, more, hts, ht⟩ := hfirst.ne_nil
    have hlength : 0 < ts.length := by rw [hts]; exact Nat.succ_pos _
    have huslength : 0 < us.length := by
      cases hus with
      | brace _ => simp
      | argument h _ =>
        obtain ⟨t, more, rfl, -⟩ := h.ne_nil
        simp
    have hfuelFirst : ts.length + lineFuel < fuel := by omega
    have hfuelRest : us.length + lineFuel < fuel := by omega
    obtain ⟨a, hgiven, hitem⟩ := reads_argument (us ++ rest) hfirst hfuelFirst
    -- an attribute of the same name would be a problem
    have hnew : body.attributes.any (·.name = a.name) = false := by
      obtain ⟨-, -, hdiffer⟩ := List.nodup_append.mp hnames
      rw [List.any_eq_false]
      intro b hb hsame
      exact hdiffer b.name (List.mem_map_of_mem hb) argument.1 (by simp)
        ((of_decide_eq_true hsame).trans hgiven.1)
    have hnames' : ((body.attributes ++ [a]).map (·.name) ++ arguments.map (·.1)).Nodup := by
      simpa [hgiven.1] using hnames
    obtain ⟨as, hall, hmore⟩ :=
      ih { body with attributes := body.attributes ++ [a] } hnames' hfuelRest
    refine ⟨a :: as, .cons hgiven hall, fun done => ?_⟩
    obtain ⟨done₁, hitem⟩ := hitem done
    obtain ⟨done₂, hmore⟩ := hmore done₁
    refine ⟨done₂, ?_⟩
    rw [parseBody]
    rw [hts] at hitem ⊢
    simp only [List.cons_append, List.append_assoc] at hitem hmore ⊢
    simp only [bind_apply, peekKind_visible ht (by decide), reduceCtorEq, if_false, hitem, hnew,
      Bool.false_eq_true, List.append_nil, hmore]
    simp

end Lines

/-! ## 4. Sections -/

section Passages

variable {ts rest : List Token} {t : Token} {fuel : Nat}

/-- A blank line of a body is passed over. -/
theorem parseBody_newline (ht : t.kind = .newline) {closer : TokenKind}
    (hcloser : closer ≠ .newline) (body : Body) (ps : List Problem) (done : Position) :
    parseBody (fuel + 1) closer body ps ⟨t :: ts, done, [true], false⟩ =
      parseBody fuel closer body ps ⟨ts, t.range.last, [true], false⟩ := by
  rw [parseBody]
  simp only [bind_apply, peekKind_newline ht, hcloser.symm, if_false, read_newline ht]

theorem SpellsLabels.ne_nil {labels : List String} (h : SpellsLabels labels ts) :
    ∃ t more, ts = t :: more ∧ (t.kind = .openQuote ∨ t.kind = .openBrace) := by
  cases h with
  | brace h => exact ⟨_, _, rfl, .inr h⟩
  | label h _ =>
    obtain ⟨t, more, rfl, ht⟩ := h.ne_nil
    exact ⟨t, _, rfl, .inl ht⟩

theorem endBlockLine_newline (ht : t.kind = .newline) (done : Position) :
    endBlockLine ⟨t :: rest, done, [true], false⟩ = ([], ⟨rest, t.range.last, [true], false⟩) := by
  unfold endBlockLine
  simp only [bind_apply, peekKind_newline ht, read_newline ht]
  rfl

/-- What stands after the kind of a section, up to the end of its last line. -/
theorem reads_parseBlock (rest : List Token) (kind : String) {labels : List String}
    {arguments : List (String × ArgumentValue)} {newline newline' : Token} {us : List Token}
    (hlabels : SpellsLabels labels ts) (hnewline : newline.kind = .newline)
    (harguments : SpellsArguments arguments us) (hnewline' : newline'.kind = .newline)
    (hnames : (arguments.map (·.1)).Nodup)
    (hfuel : (ts ++ newline :: (us ++ [newline'])).length + lineFuel < fuel) :
    ∃ b : Block, b.Says ⟨kind, labels, arguments⟩ ∧
      Reads (parseBlock fuel kind) [true] (ts ++ newline :: (us ++ [newline'])) rest b := by
  simp only [List.length_append, List.length_cons, List.length_nil] at hfuel
  obtain ⟨fuel, rfl⟩ : ∃ more, fuel = more + 2 := ⟨fuel - 2, by omega⟩
  have hfuelLabels : ts.length < fuel + 1 := by omega
  have hfuelBody : us.length + lineFuel < fuel := by omega
  obtain ⟨as, hgiven, hbody⟩ :=
    reads_arguments (newline' :: rest) harguments ⟨[], []⟩ (by simpa using hnames) hfuelBody
  refine ⟨.mk kind labels as [], ⟨rfl, rfl, hgiven, rfl⟩, fun done => ⟨newline'.range.last, ?_⟩⟩
  obtain ⟨done₁, hread⟩ :=
    reads_parseLabels [true] (newline :: (us ++ newline' :: rest)) hlabels [] hfuelLabels done
  obtain ⟨done₂, hbody⟩ := hbody newline.range.last
  rw [parseBlock]
  simp only [List.append_assoc, List.cons_append, List.nil_append] at hread hbody ⊢
  simp only [bind_apply, hread, peekKind_newline hnewline,
    parseBody_newline hnewline (by decide : TokenKind.closeBrace ≠ .newline), hbody,
    endBlockLine_newline hnewline']
  rfl

theorem reads_passage (rest : List Token) {s : Passage} (h : SpellsPassage s ts)
    (hnames : (s.arguments.map (·.1)).Nodup) (hfuel : ts.length + lineFuel < fuel) :
    ∃ b : Block, b.Says s ∧ Reads (parseItem fuel) [true] ts rest (.block b) := by
  obtain @⟨kind, newline, newline', labels, arguments, ts, us, hkind, hlabels, hnewline, harguments,
      hnewline'⟩ := h
  rw [List.length_cons] at hfuel
  obtain ⟨fuel, rfl⟩ : ∃ more, fuel = more + 1 := ⟨fuel - 1, by omega⟩
  have hfuelBlock : (ts ++ newline :: (us ++ [newline'])).length + lineFuel < fuel := by omega
  obtain ⟨b, hgiven, hblock⟩ :=
    reads_parseBlock rest kind.text hlabels hnewline harguments hnewline' hnames hfuelBlock
  refine ⟨b, hgiven, fun done => ?_⟩
  obtain ⟨done', hblock⟩ := hblock kind.range.last
  refine ⟨done', ?_⟩
  obtain ⟨t, more, rfl, ht⟩ := hlabels.ne_nil
  rw [parseItem]
  simp only [List.cons_append, List.append_assoc, List.nil_append] at hblock ⊢
  -- with or without labels a section is told from an argument by its second token
  rcases ht with ht | ht
  · simp only [bind_apply, read_visible hkind (by decide), peekKind_visible ht (by decide), hblock]
    rfl
  · simp only [bind_apply, read_visible hkind (by decide), peekKind_visible ht (by decide), hblock]
    rfl

/-- A file of sections is read as a block for each of them. -/
theorem reads_file {ss : List Passage} (h : SpellsFile ss ts) {last : Token}
    (hlast : last.kind = .eof) (body : Body) (hnames : ∀ s ∈ ss, (s.arguments.map (·.1)).Nodup)
    (hfuel : ts.length + lineFuel + 1 < fuel) :
    ∃ bs : List Block, List.Forall₂ Block.Says bs ss ∧ ∀ done,
      (parseBody fuel .eof body [] ⟨ts ++ [last], done, [true], false⟩).1 = ({ body with blocks :=
        body.blocks ++ bs }, []) := by
  -- by induction on the lines of the file, with the sections already read in the body
  induction h generalizing fuel body with
  | nil =>
    obtain ⟨fuel, rfl⟩ := Nat.exists_eq_add_one.mpr (Nat.zero_lt_of_lt hfuel)
    refine ⟨[], .nil, fun done => ?_⟩
    have hnext : (Cursor.mk [last] done [true] false).next = (last, [last]) := by
      change Cursor.nextToken _ _ [last] = _
      unfold Cursor.nextToken
      simp only [hlast]
    rw [parseBody]
    simp only [List.nil_append, bind_apply, peekKind_eq hnext, hlast, if_true, read_eq hnext]
    simp [pure_apply]
  | @blank ss t ts ht _ ih =>
    rw [List.length_cons] at hfuel
    obtain ⟨fuel, rfl⟩ : ∃ more, fuel = more + 1 := ⟨fuel - 1, by omega⟩
    have hfuelRest : ts.length + lineFuel + 1 < fuel := by omega
    obtain ⟨bs, hgiven, hmore⟩ := ih body hnames hfuelRest
    refine ⟨bs, hgiven, fun done => ?_⟩
    rw [List.cons_append, parseBody_newline ht (by decide), hmore]
  | @passage s ss ts us hfirst _ ih =>
    rw [List.length_append] at hfuel
    obtain ⟨hname, hnames⟩ := List.forall_mem_cons.mp hnames
    obtain ⟨t, more, hts, ht⟩ := hfirst.exists_cons
    have hlength : 0 < ts.length := by rw [hts]; exact Nat.succ_pos _
    obtain ⟨fuel, rfl⟩ : ∃ more, fuel = more + 1 := ⟨fuel - 1, by omega⟩
    have hfuelFirst : ts.length + lineFuel < fuel := by omega
    have hfuelRest : us.length + lineFuel + 1 < fuel := by omega
    obtain ⟨b, hb, hitem⟩ := reads_passage (us ++ [last]) hfirst hname hfuelFirst
    obtain ⟨bs, hbs, hmore⟩ := ih { body with blocks := body.blocks ++ [b] } hnames hfuelRest
    refine ⟨b :: bs, .cons hb hbs, fun done => ?_⟩
    obtain ⟨done₁, hitem⟩ := hitem done
    have hmore := hmore done₁
    rw [parseBody]
    rw [hts] at hitem ⊢
    simp only [List.cons_append, List.append_assoc, List.nil_append] at hitem hmore ⊢
    simp only [bind_apply, peekKind_visible ht (by decide), reduceCtorEq, if_false, hitem]
    exact hmore

/-- The text of a file of sections, which has no byte order mark, parses without problems. -/
theorem parseFile_passages {cs : List Char} {ss : List Passage}
    (h : Lexes [.code none] cs (SpellsFile ss) [.code none] [])
    (hmark : dropByteOrderMark (cs.map .char) = cs.map .char)
    (hnames : ∀ s ∈ ss, (s.arguments.map (·.1)).Nodup) :
    ∃ bs : List Block, List.Forall₂ Block.Says bs ss ∧
      parseFile (cs.map .char) = (⟨[], bs⟩, []) := by
  obtain ⟨ts, last, htokens, hfile, hlast, hok⟩ := h.tokensFrom_eq Position.start
  -- the parser has fuel for more steps than there are tokens
  have hfuel : ts.length + lineFuel + 1 < fuelPerToken * ((ts ++ [last]).length + 2) := by
    rw [List.length_append, List.length_singleton]
    unfold lineFuel valueFuel fuelPerToken
    omega
  obtain ⟨bs, hgiven, hread⟩ := reads_file hfile hlast ⟨[], []⟩ hnames hfuel
  have hproblems : (ts ++ [last]).filterMap tokenProblem? = [] := by
    rw [List.filterMap_eq_nil_iff]
    intro t ht
    rcases List.mem_append.mp ht with ht | ht
    · exact hok t ht
    · rw [List.mem_singleton.mp ht, tokenProblem?, hlast]
  refine ⟨bs, hgiven, ?_⟩
  unfold parseFile tokens
  rw [hmark, htokens]
  have hbody := hread Position.start
  simp only [StateT.run, Cursor.ofTokens, hproblems, List.nil_append]
  simp only [List.nil_append] at hbody
  rw [← hbody]
  rfl

end Passages

end CypherBlocks.Config
