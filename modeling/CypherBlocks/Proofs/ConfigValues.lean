import CypherBlocks.Proofs.NumberText
import CypherBlocks.Proofs.QuotedText

/-!
# Reading values

What the parser makes of the tokens of a text, a number or a list of texts, whatever stands after
them that may end a value.  Fuel only has to exceed the number of tokens by a little, and no problem
is reported.
-/

namespace CypherBlocks

/-- What can be written and read again: normalised texts, integers of 64 bits and finite numbers. -/
def ArgumentValue.Fits : ArgumentValue → Prop
  | .text s => Text.normalize s = s
  | .whole n => Document.leastWhole ≤ n ∧ n ≤ Document.greatestWhole
  | .real x => x.IsProper
  | .texts ss => ∀ s ∈ ss, Text.normalize s = s

instance (v : ArgumentValue) : Decidable v.Fits :=
  match v with
  | .text s => inferInstanceAs (Decidable (Text.normalize s = s))
  | .whole n => inferInstanceAs (Decidable (Document.leastWhole ≤ n ∧ n ≤ Document.greatestWhole))
  | .real x => inferInstanceAs (Decidable x.IsProper)
  | .texts ss => inferInstanceAs (Decidable (∀ s ∈ ss, Text.normalize s = s))

end CypherBlocks

namespace CypherBlocks.Config

open Parse

/-! ## 1. Steps of a parse -/

section Steps

variable {α β : Type} {t : Token} {rest : List Token} {done : Position}
  {newlines : List Bool} {c : Cursor}

theorem bind_apply (p : Parse α) (f : α → Parse β) (c : Cursor) : (p >>= f) c = f (p c).1 (p c).2 :=
  rfl

theorem pure_apply (a : α) (c : Cursor) : (pure a : Parse α) c = (a, c) := rfl

/-- Kinds of tokens that are read wherever they stand. -/
def IsVisible (kind : TokenKind) : Prop := kind ≠ .eof ∧ kind ≠ .comment ∧ kind ≠ .newline

instance (kind : TokenKind) : Decidable (IsVisible kind) := inferInstanceAs (Decidable (_ ∧ _ ∧ _))

theorem next_visible (h : IsVisible t.kind) :
    (Cursor.mk (t :: rest) done newlines false).next = (t, rest) := by
  obtain ⟨heof, hcomment, hnewline⟩ := h
  change Cursor.nextToken _ _ (t :: rest) = _
  unfold Cursor.nextToken
  split
  · contradiction
  · contradiction
  · contradiction
  · rfl

theorem next_newline (h : t.kind = .newline) (hread : newlines.head? = some true) :
    (Cursor.mk (t :: rest) done newlines false).next = (t, rest) := by
  change Cursor.nextToken (newlines.head?.getD true) _ (t :: rest) = _
  unfold Cursor.nextToken
  simp only [h, hread, Option.getD_some, if_true]

theorem peek_eq {t : Token} {more : List Token} (h : c.next = (t, more)) : peek c = (t, c) := by
  change (c.next.1, c) = _
  rw [h]

theorem peekKind_eq {more : List Token} (h : c.next = (t, more)) : peekKind c = (t.kind, c) := by
  change (c.next.1.kind, c) = _
  rw [h]

theorem read_eq {more : List Token} (h : c.next = (t, more)) :
    read c = (t, { c with rest := more, done := t.range.last }) := by
  change (c.next.1, { c with rest := c.next.2, done := c.next.1.range.last }) = _
  rw [h]

theorem peekKind_visible {kind : TokenKind} (h : t.kind = kind) (hkind : IsVisible kind) :
    peekKind ⟨t :: rest, done, newlines, false⟩ = (kind, ⟨t :: rest, done, newlines, false⟩) := by
  rw [peekKind_eq (next_visible (h ▸ hkind)), h]

theorem read_visible {kind : TokenKind} (h : t.kind = kind) (hkind : IsVisible kind) :
    read ⟨t :: rest, done, newlines, false⟩ = (t, ⟨rest, t.range.last, newlines, false⟩) :=
  read_eq (next_visible (h ▸ hkind))

/-- A parse without problems never went astray. -/
theorem isAstray_nil (c : Cursor) : isAstray [] c = (false, c) := by
  change ((c.recovering && !([] : List Problem).isEmpty), c) = _
  simp

end Steps

/-! ## 2. Values without operators -/

/-- What may stand after a value: the end of its line, if lines matter, or what comes next in a
list. -/
def EndsValue (newlines : List Bool) (rest : List Token) : Prop :=
  ∃ t more, rest = t :: more ∧ (t.kind = .comma ∨ t.kind = .closeBracket ∨ t.kind = .newline ∧
    newlines.head? = some true)

/-- From some tokens a parse makes a result and reports nothing. -/
def Reads {α : Type} (p : Parse (Reported α)) (newlines : List Bool) (ts rest : List Token)
    (a : α) : Prop :=
  ∀ done, ∃ done', p ⟨ts ++ rest, done, newlines, false⟩ = ((a, []), ⟨rest, done', newlines, false⟩)

section Values

variable {newlines : List Bool} {ts rest : List Token} {e : Expr} {fuel : Nat} {c : Cursor}
  {kind : TokenKind}

theorem EndsValue.peekKind (h : EndsValue newlines rest) (done : Position) :
    ∃ kind, Parse.peekKind ⟨rest, done, newlines, false⟩ = (kind, ⟨rest, done, newlines, false⟩) ∧
      (kind = .comma ∨ kind = .closeBracket ∨ kind = .newline) := by
  obtain ⟨t, more, rfl, hkind | hkind | ⟨hkind, hread⟩⟩ := h
  · exact ⟨t.kind, peekKind_eq (next_visible (by rw [hkind]; decide)), .inl hkind⟩
  · exact ⟨t.kind, peekKind_eq (next_visible (by rw [hkind]; decide)), .inr (.inl hkind)⟩
  · exact ⟨t.kind, peekKind_eq (next_newline hkind hread), .inr (.inr hkind)⟩

theorem parseSteps_end (hpeek : peekKind c = (kind, c))
    (hkind : kind = .comma ∨ kind = .closeBracket ∨ kind = .newline) :
    parseSteps fuel e c = ((e, []), c) := by
  cases fuel with
  | zero => rfl
  | succ fuel =>
    rw [parseSteps]
    simp only [bind_apply, hpeek]
    rcases hkind with rfl | rfl | rfl <;> rfl

/-- No operator goes on after a value. -/
theorem lookup_operators (hkind : kind = .comma ∨ kind = .closeBracket ∨ kind = .newline) :
    ∀ ops ∈ operatorLevels, ops.lookup kind = none := by
  rcases hkind with rfl | rfl | rfl <;> decide

theorem parseOperands_end {ops : List (TokenKind × BinaryOp)}
    {tighter : List (List (TokenKind × BinaryOp))} {ps : List Problem}
    (hpeek : peekKind c = (kind, c)) (hops : ops.lookup kind = none) :
    parseOperands fuel ops tighter e ps c = ((e, ps), c) := by
  cases fuel with
  | zero => rfl
  | succ fuel =>
    rw [parseOperands]
    simp only [bind_apply, hpeek, hops]
    rfl

theorem parseLevel_eq {c' : Cursor} {levels : List (List (TokenKind × BinaryOp))}
    (hpath : parsePath fuel c = ((e, []), c')) (hpeek : peekKind c' = (kind, c'))
    (hlevels : ∀ ops ∈ levels, ops.lookup kind = none) :
    parseLevel (fuel + 1 + levels.length) levels c = ((e, []), c') := by
  induction levels with
  | nil => exact hpath
  | cons ops tighter ih =>
    obtain ⟨hops, htighter⟩ := List.forall_mem_cons.mp hlevels
    rw [List.length_cons, ← Nat.add_assoc, parseLevel]
    simp only [bind_apply, ih htighter, isAstray_nil]
    exact parseOperands_end hpeek hops

/-- The least fuel that reading a value needs on top of that for its term. -/
def valueFuel : Nat := 9

/-- A value is a single term. -/
theorem reads_parseExpr (hends : EndsValue newlines rest)
    (hterm : Reads (parseTerm fuel) newlines ts rest e) :
    Reads (parseExpr (fuel + valueFuel)) newlines ts rest e := by
  intro done
  obtain ⟨done', hterm⟩ := hterm done
  obtain ⟨kind, hpeek, hkind⟩ := hends.peekKind done'
  refine ⟨done', ?_⟩
  have hpath : parsePath (fuel + 1) ⟨ts ++ rest, done, newlines, false⟩ = ((e, []),
      ⟨rest, done', newlines, false⟩) := by
    rw [parsePath]
    simp only [bind_apply, hterm, parseSteps_end hpeek hkind]
    rfl
  have hlevel := parseLevel_eq hpath hpeek (lookup_operators hkind)
  change parseLevel (fuel + 8) operatorLevels _ = _ at hlevel
  change parseExpr (fuel + 8 + 1) _ = _
  rw [parseExpr]
  simp only [bind_apply, hlevel, isAstray_nil, Bool.false_eq_true, if_false, hpeek]
  rcases hkind with rfl | rfl | rfl <;> rfl

/-! ## 3. Texts and numbers -/

theorem joinTexts_map (ds : List (List Char)) (hne : ds ≠ []) :
    joinTexts (ds.map .text) = [.text ds.flatten] := by
  induction ds with
  | nil => contradiction
  | cons d ds ih =>
    cases ds with
    | nil => simp [joinTexts]
    | cons d' ds =>
      rw [List.map_cons, joinTexts, ih (by simp)]
      rfl

/-- The expression that a text in quotes is read as. -/
def quotedExpr (s : String) : Expr := .template [.literal (.text s)]

/-- A template of texts only is a single text. -/
theorem templateExpr_texts {s : String} {ts : List Token} (h : SpellsText s.toList ts) :
    templateExpr false (ts.map fun t => .text (tokenText t).1) = (quotedExpr s, []) := by
  have hs : s = String.ofList s.toList := String.ofList_toList.symm
  unfold templateExpr
  cases ts with
  | nil =>
    have hempty : s.toList = [] := h.text.symm
    rw [hs, hempty]
    rfl
  | cons t ts =>
    have hjoin := joinTexts_map ((t :: ts).map fun t => (tokenText t).1) (by simp)
    have htext := h.text
    rw [List.flatMap_def] at htext
    rw [List.map_map, htext] at hjoin
    simp only [List.map_cons, List.isEmpty_cons, Bool.false_eq_true, if_false]
    simp only [List.map_cons, Function.comp_def] at hjoin
    rw [hjoin]
    simp [partsExprs, partExpr, textExpr, quotedExpr]

theorem reads_parseParts (newlines : List Bool) (rest : List Token) {body : List Token}
    (hkind : ∀ t ∈ body, t.kind = .quotedText) (hsound : ∀ t ∈ body, (tokenText t).2 = [])
    {last : Token} (hlast : last.kind = .closeQuote) (parts : List Part) (trimmable : Bool)
    (hfuel : body.length < fuel) :
    Reads (parseParts fuel .closeQuote parts false trimmable []) newlines (body ++ [last]) rest
      (parts ++ body.map fun t => .text (tokenText t).1) := by
  -- by induction on the stretches of text, with the parts already read in front
  induction body generalizing fuel parts trimmable with
  | nil =>
    intro done
    obtain ⟨fuel, rfl⟩ := Nat.exists_eq_add_one.mpr (Nat.zero_lt_of_lt hfuel)
    refine ⟨last.range.last, ?_⟩
    rw [parseParts]
    simp only [bind_apply, List.nil_append, List.singleton_append,
      read_visible hlast (by decide), hlast]
    simp [pure_apply]
  | cons t body ih =>
    intro done
    obtain ⟨fuel, rfl⟩ := Nat.exists_eq_add_one.mpr (Nat.zero_lt_of_lt hfuel)
    obtain ⟨ht, hkind⟩ := List.forall_mem_cons.mp hkind
    obtain ⟨hok, hsound⟩ := List.forall_mem_cons.mp hsound
    have hfuel : body.length < fuel := by simpa using hfuel
    obtain ⟨done', hmore⟩ :=
      ih hkind hsound (parts ++ [.text (tokenText t).1]) true hfuel t.range.last
    refine ⟨done', ?_⟩
    rw [parseParts]
    simp only [bind_apply, List.cons_append, read_visible ht (by decide), ht]
    simpa [hok] using hmore

/-- A text in quotes is a term. -/
theorem reads_quoted {s : String} (hs : SpellsQuoted s ts) (hfuel : ts.length < fuel) :
    Reads (parseTerm fuel) newlines ts rest (quotedExpr s) := by
  obtain ⟨first, body, last, rfl, hfirst, hbody, hlast⟩ := hs
  obtain ⟨fuel, rfl⟩ : ∃ more, fuel = more + 2 :=
    ⟨fuel - 2, by simp only [List.length_cons] at hfuel; omega⟩
  have hfuel : body.length < fuel := by simpa using hfuel
  intro done
  obtain ⟨done', hparts⟩ :=
    reads_parseParts newlines rest hbody.kind hbody.sound hlast [] false hfuel first.range.last
  refine ⟨done', ?_⟩
  rw [parseTerm]
  simp only [bind_apply, List.cons_append, peekKind_visible hfirst (by decide),
    read_visible hfirst (by decide)]
  rw [parseTemplate]
  simp only [bind_apply, hparts, List.nil_append, templateExpr_texts hbody]
  rfl

/-- The tokens of a number, with a sign if it is negative. -/
def SpellsNumber (neg : Bool) (n : Binary) (ts : List Token) : Prop :=
  ∃ signs t, ts = signs ++ [t] ∧ (if neg then ∃ m, signs = [m] ∧ m.kind = .minus else signs = []) ∧
    t.kind = .number ∧ Binary.parse? t.text = some n

/-- The expression that a number is read as. -/
def numberExpr (neg : Bool) (n : Binary) : Expr :=
  if neg then .unary .negate (.literal (.number n)) else .literal (.number n)

theorem reads_number_token (fuel : Nat) (newlines : List Bool) (rest : List Token) {t : Token}
    {n : Binary} (ht : t.kind = .number) (hn : Binary.parse? t.text = some n) :
    Reads (parseTerm (fuel + 1)) newlines [t] rest (.literal (.number n)) := by
  intro done
  refine ⟨t.range.last, ?_⟩
  rw [parseTerm]
  simp only [bind_apply, List.singleton_append, peekKind_visible ht (by decide),
    read_visible ht (by decide), numberLiteral, hn]
  rfl

/-- A term after a minus sign is negated. -/
theorem reads_negated {m : Token} (hm : m.kind = .minus)
    (hterm : Reads (parseTerm fuel) newlines ts rest e) (hends : EndsValue newlines rest) :
    Reads (parseTerm (fuel + 2)) newlines (m :: ts) rest (.unary .negate e) := by
  intro done
  obtain ⟨done', hterm⟩ := hterm m.range.last
  obtain ⟨kind, hpeek, hkind⟩ := hends.peekKind done'
  refine ⟨done', ?_⟩
  rw [parseTerm]
  simp only [bind_apply, List.cons_append, peekKind_visible hm (by decide),
    read_visible hm (by decide)]
  rw [parsePath]
  simp only [bind_apply, hterm, parseSteps_end hpeek hkind]
  rfl

theorem reads_number {neg : Bool} {n : Binary} (hts : SpellsNumber neg n ts)
    (hends : EndsValue newlines rest) (hfuel : 3 ≤ fuel) :
    Reads (parseTerm fuel) newlines ts rest (numberExpr neg n) := by
  obtain ⟨signs, t, rfl, hsigns, ht, hn⟩ := hts
  obtain ⟨fuel, rfl⟩ : ∃ more, fuel = more + 3 := ⟨fuel - 3, by omega⟩
  cases neg with
  | false =>
    obtain rfl : signs = [] := by simpa using hsigns
    exact reads_number_token _ _ _ ht hn
  | true =>
    obtain ⟨m, rfl, hm⟩ : ∃ m, signs = [m] ∧ m.kind = .minus := by simpa using hsigns
    exact reads_negated hm (reads_number_token fuel newlines rest ht hn) hends

/-- A name that is no keyword, before the end of a value, is a variable. -/
theorem reads_variable_token (fuel : Nat) {t : Token} (ht : t.kind = .identifier)
    (htext : t.text = "Inf") (hends : EndsValue newlines rest) :
    Reads (parseTerm (fuel + 1)) newlines [t] rest (.variable "Inf") := by
  intro done
  obtain ⟨kind, hpeek, hkind⟩ := hends.peekKind t.range.last
  refine ⟨t.range.last, ?_⟩
  rw [parseTerm]
  simp only [bind_apply, List.singleton_append, peekKind_visible ht (by decide),
    read_visible ht (by decide), hpeek, htext]
  rcases hkind with rfl | rfl | rfl <;> rfl

/-! ## 4. Lists -/

/-- The tokens of the items of a list, with its closing bracket. -/
inductive SpellsItems : List String → List Token → Prop where
  | last {s : String} {ts : List Token} {close : Token} (text : SpellsQuoted s ts)
      (closes : close.kind = .closeBracket) : SpellsItems [s] (ts ++ [close])
  | more {s : String} {ss : List String} {ts us : List Token} {comma : Token}
      (text : SpellsQuoted s ts) (separates : comma.kind = .comma) (others : SpellsItems ss us) :
      SpellsItems (s :: ss) (ts ++ comma :: us)

theorem SpellsQuoted.ne_nil {s : String} (h : SpellsQuoted s ts) :
    ∃ t more, ts = t :: more ∧ t.kind = .openQuote := by
  obtain ⟨first, body, last, rfl, hfirst, -, -⟩ := h
  exact ⟨first, _, rfl, hfirst⟩

/-- An item of a list, read as a value before a comma or the closing bracket. -/
theorem reads_item {s : String} (hs : SpellsQuoted s ts) {next : Token}
    (hnext : next.kind = .comma ∨ next.kind = .closeBracket)
    (hfuel : ts.length + valueFuel < fuel) (outer : List Bool) (rest : List Token) :
    Reads (parseExpr fuel) (false :: outer) ts (next :: rest) (quotedExpr s) := by
  obtain ⟨fuel, rfl⟩ : ∃ more, fuel = more + valueFuel := ⟨fuel - valueFuel, by omega⟩
  refine reads_parseExpr ⟨next, rest, rfl, ?_⟩ (reads_quoted hs (by omega))
  rcases hnext with h | h
  · exact .inl h
  · exact .inr (.inl h)

theorem reads_items {ss : List String} (h : SpellsItems ss ts)
    (hfuel : ts.length + valueFuel < fuel) (outer : List Bool) (rest : List Token) :
    Reads (parseItems fuel) (false :: outer) ts rest (ss.map quotedExpr) := by
  -- by induction on the items, each followed by a comma or the closing bracket
  induction h generalizing fuel with
  | @last s ts close hs hclose =>
    intro done
    obtain ⟨fuel, rfl⟩ : ∃ more, fuel = more + 1 := ⟨fuel - 1, by omega⟩
    have hfuel : ts.length + valueFuel < fuel := by
      simp only [List.length_append, List.length_singleton] at hfuel; omega
    obtain ⟨done', hitem⟩ := reads_item hs (.inr hclose) hfuel outer rest done
    refine ⟨close.range.last, ?_⟩
    obtain ⟨first, more, rfl, hfirst⟩ := hs.ne_nil
    rw [parseItems]
    simp only [List.cons_append, List.append_assoc, List.nil_append] at hitem ⊢
    simp only [bind_apply, peekKind_visible hfirst (by decide), reduceCtorEq, Bool.false_eq_true,
      if_false, hitem, isAstray_nil, peekKind_visible hclose (by decide),
      read_visible hclose (by decide)]
    rfl
  | @more s ss ts us comma hs hcomma hus ih =>
    intro done
    obtain ⟨fuel, rfl⟩ : ∃ more, fuel = more + 1 := ⟨fuel - 1, by omega⟩
    rw [List.length_append, List.length_cons] at hfuel
    have hfuel₁ : ts.length + valueFuel < fuel := by omega
    have hfuel₂ : us.length + valueFuel < fuel := by omega
    obtain ⟨done₁, hitem⟩ := reads_item hs (.inl hcomma) hfuel₁ outer (us ++ rest) done
    obtain ⟨done₂, hmore⟩ := ih hfuel₂ comma.range.last
    refine ⟨done₂, ?_⟩
    obtain ⟨first, more, rfl, hfirst⟩ := hs.ne_nil
    rw [parseItems]
    simp only [List.cons_append, List.append_assoc] at hitem hmore ⊢
    simp only [bind_apply, peekKind_visible hfirst (by decide), reduceCtorEq, Bool.false_eq_true,
      if_false, hitem, isAstray_nil, peekKind_visible hcomma (by decide),
      read_visible hcomma (by decide), hmore]
    rfl

theorem withNewlines_apply {α : Type} (b : Bool) (p : Parse α) (c : Cursor) :
    withNewlines b p c = ((p { c with newlines := b :: c.newlines }).1,
      { (p { c with newlines := b :: c.newlines }).2 with
        newlines := (p { c with newlines := b :: c.newlines }).2.newlines.drop 1 }) := rfl

/-- A list of texts is a term. -/
theorem reads_list {first : Token} (hfirst : first.kind = .openBracket) {ss : List String}
    (h : SpellsItems ss ts) (hfuel : ts.length + valueFuel + 1 < fuel) :
    Reads (parseTerm fuel) newlines (first :: ts) rest (.tuple (ss.map quotedExpr)) := by
  intro done
  obtain ⟨fuel, rfl⟩ : ∃ more, fuel = more + 1 := ⟨fuel - 1, by omega⟩
  have hfuel : ts.length + valueFuel < fuel := by omega
  obtain ⟨done', hitems⟩ := reads_items h hfuel newlines rest first.range.last
  refine ⟨done', ?_⟩
  obtain ⟨t, more, rfl, ht⟩ : ∃ t more, ts = t :: more ∧ t.kind = .openQuote := by
    cases h with
    | last hs _ =>
      obtain ⟨t, more, rfl, ht⟩ := hs.ne_nil
      exact ⟨t, _, rfl, ht⟩
    | more hs _ _ =>
      obtain ⟨t, more, rfl, ht⟩ := hs.ne_nil
      exact ⟨t, _, rfl, ht⟩
  -- a bracket may also begin a comprehension, but not before a quote
  have hword : isKeyword "for" t = false := by simp [isKeyword, ht]
  have hpeek : peek ⟨t :: (more ++ rest), first.range.last, false :: newlines, false⟩ =
      (t, ⟨t :: (more ++ rest), first.range.last, false :: newlines, false⟩) :=
        peek_eq (next_visible (by rw [ht]; decide))
  rw [parseTerm]
  simp only [List.cons_append] at hitems ⊢
  simp only [bind_apply, peekKind_visible hfirst (by decide), read_visible hfirst (by decide),
    withNewlines_apply, hpeek, hword, Bool.false_eq_true, if_false, hitems]
  rfl

/-! ## 5. Argument values -/

/-- The tokens of a value, and the expression that they stand for. The infinite number below zero is
spelled as a negated name. -/
inductive Spells : ArgumentValue → Expr → List Token → Prop where
  | text {s : String} {ts : List Token} (quoted : SpellsQuoted s ts) :
      Spells (.text s) (quotedExpr s) ts
  | whole {n : Int} {b : Binary} {ts : List Token} (number : SpellsNumber (n < 0) b ts)
      (size : b.toInt? = some (n.natAbs : Int)) : Spells (.whole n) (numberExpr (n < 0) b) ts
  | real {x : Double} {neg : Bool} {b : Binary} {ts : List Token} (number : SpellsNumber neg b ts)
      (value : Double.ofBinary (if neg then b.negate else b) = x) (finite : x.isFinite = true) :
      Spells (.real x) (numberExpr neg b) ts
  | negativeInfinity {minus name : Token} (negates : minus.kind = .minus)
      (names : name.kind = .identifier) (text : name.text = "Inf") :
      Spells (.real (.infinite true)) (.unary .negate (.variable "Inf")) [minus, name]
  | texts {ss : List String} {first : Token} {ts : List Token} (opens : first.kind = .openBracket)
      (items : SpellsItems ss ts) : Spells (.texts ss) (.tuple (ss.map quotedExpr)) (first :: ts)

/-- A value is read as its expression. -/
theorem Spells.reads {v : ArgumentValue} (h : Spells v e ts) (hends : EndsValue newlines rest)
    (hfuel : ts.length + 2 * valueFuel < fuel) : Reads (parseExpr fuel) newlines ts rest e := by
  obtain ⟨fuel, rfl⟩ : ∃ more, fuel = more + valueFuel := ⟨fuel - valueFuel, by omega⟩
  have hfuel : ts.length + valueFuel < fuel := by omega
  refine reads_parseExpr hends ?_
  cases h with
  | text hs => exact reads_quoted hs (by omega)
  | whole hn _ => exact reads_number hn hends (by unfold valueFuel at hfuel; omega)
  | real hn _ _ => exact reads_number hn hends (by unfold valueFuel at hfuel; omega)
  | negativeInfinity hminus hname htext =>
    obtain ⟨fuel, rfl⟩ : ∃ more, fuel = more + 1 + 2 :=
      ⟨fuel - 3, by unfold valueFuel at hfuel; omega⟩
    exact reads_negated hminus (reads_variable_token fuel hname htext hends) hends
  | texts hfirst hitems => exact reads_list hfirst hitems (by rw [List.length_cons] at hfuel; omega)

end Values

/-! ## 6. What values stand for -/

section Meaning

variable {s : String} {ss : List String} {scope : Scope}

theorem eval_quotedExpr (hs : Text.normalize s = s) :
    eval scope (quotedExpr s) = (.text s, []) := by
  have hconvert : Value.convert (.text s) .text = .ok (.text s) := rfl
  simp [quotedExpr, eval, evalAll, evalTemplate, Literal.value, Value.isNull, Value.isKnown,
    hconvert, texts, String.join, hs]

theorem evalAll_quotedExpr (hss : ∀ s ∈ ss, Text.normalize s = s) :
    evalAll scope (ss.map quotedExpr) = ss.map fun s => (.text s, []) := by
  induction ss with
  | nil => rfl
  | cons s ss ih =>
    obtain ⟨hs, hss⟩ := List.forall_mem_cons.mp hss
    rw [List.map_cons, evalAll, eval_quotedExpr hs, ih hss, List.map_cons]

theorem eval_numberExpr (neg : Bool) (b : Binary) :
    eval scope (numberExpr neg b) = (.number (if neg then b.negate else b), []) := by
  cases neg with
  | false => rfl
  | true => rfl

theorem convertAll_texts (ss : List String) :
    Value.convertAll (ss.map .text) .text = .ok (ss.map .text) := by
  induction ss with
  | nil => rfl
  | cons s ss ih =>
    rw [List.map_cons, Value.convertAll, ih]
    rfl

theorem allConvert_texts (ss : List String) :
    Ty.allConvert (Value.tys (ss.map .text)) .text = true := by
  induction ss with
  | nil => simp [Value.tys, Ty.allConvert]
  | cons s ss ih => simp [Value.tys, Value.ty, Ty.allConvert, Ty.converts, ih]

theorem convert_texts (ss : List String) :
    Value.convert (.tuple (ss.map .text)) (.list .text) = .ok (.list .text (ss.map .text)) := by
  have hconverts : Ty.converts (.tuple (Value.tys (ss.map .text))) (.list .text) = true := by
    rw [Ty.converts]
    exact allConvert_texts ss
  unfold Value.convert
  rw [if_neg (by simp [Value.ty, BEq.beq, Ty.same]), Value.ty, if_pos hconverts, Value.convertTo,
    convertAll_texts]
  rfl

theorem mapM_takeText (ss : List String) : (ss.map Value.text).mapM Document.takeText = .ok ss := by
  induction ss with
  | nil => rfl
  | cons s ss ih =>
    rw [List.map_cons, List.mapM_cons, ih]
    rfl

theorem toInt?_negate (b : Binary) : b.negate.toInt? = b.toInt?.map (- ·) := by
  unfold Binary.toInt? Binary.negate
  cases b.size with
  | zero => rfl
  | infinite => rfl
  | finite m e =>
    cases b.neg <;> simp only [Bool.not_false, Bool.not_true, Bool.false_eq_true, if_false, if_true]
    · split
      · rfl
      · split <;> rfl
    · split
      · simp
      · split <;> simp

end Meaning

/-- The expression of a value evaluates to it. -/
theorem Spells.decode {v : ArgumentValue} {e : Expr} {ts : List Token} (h : Spells v e ts)
    (hv : v.Fits) :
    ∃ w, e.value = .ok w ∧ w.isNull = false ∧ (Document.decodeValue v.ty w).2 = .ok v := by
  cases h with
  | @text s ts hs =>
    refine ⟨.text s, ?_, rfl, rfl⟩
    unfold Expr.value
    rw [eval_quotedExpr hv]
  | @whole n b ts hn hsize =>
    -- the sign is an operator before the digits
    have hint : (if decide (n < 0) then b.negate else b).toInt? = some n := by
      by_cases hneg : n < 0
      · have habs : -(n.natAbs : Int) = n := by omega
        simp only [hneg, decide_true, if_true, toInt?_negate, hsize, Option.map_some, habs]
      · have habs : (n.natAbs : Int) = n := by omega
        simp only [hneg, decide_false, Bool.false_eq_true, if_false, hsize, habs]
    refine ⟨.number (if decide (n < 0) then b.negate else b), ?_, rfl, ?_⟩
    · unfold Expr.value
      rw [eval_numberExpr]
    · change (Document.takeWhole (.number (if decide (n < 0) then b.negate else b))).map
        ArgumentValue.whole = _
      obtain ⟨hleast, hgreatest⟩ : Document.leastWhole ≤ n ∧ n ≤ Document.greatestWhole := hv
      unfold Document.takeWhole
      simp only [hint]
      rw [if_pos (by simp [hleast, hgreatest])]
      rfl
  | @real x neg b ts hn hx hfinite =>
    refine ⟨.number (if neg then b.negate else b), ?_, rfl, ?_⟩
    · unfold Expr.value
      rw [eval_numberExpr]
    · change (Document.takeReal (.number (if neg then b.negate else b))).map ArgumentValue.real = _
      unfold Document.takeReal
      simp only [hx, hfinite, Bool.or_true, if_true]
      rfl
  | negativeInfinity => cases hv
  | @texts ss first ts hfirst hitems =>
    refine ⟨.tuple (ss.map .text), ?_, rfl, ?_⟩
    · have hproblems : (ss.map fun s => (Value.text s, ([] : List Problem))).flatMap (·.2) =
          [] := by
        simp [List.flatMap_map]
      have hvalues : (ss.map fun s => (Value.text s, ([] : List Problem))).map (·.1) =
          ss.map Value.text := by
        simp
      unfold Expr.value
      rw [eval, evalAll_quotedExpr hv]
      simp only [hproblems, hvalues]
    · unfold Document.decodeValue
      simp only [Document.valueTy, ArgumentValue.ty, convert_texts, Document.take,
        Document.takeTexts, mapM_takeText]
      rfl

end CypherBlocks.Config
