import CypherBlocks.Proofs.ScopeReader

/-!
# Clauses are read as what they do with variables

The words and signs of a clause begin with its keyword, and what follows belongs to it: variables
are told from the words of the language, and the name of a relationship type is never taken for a
keyword. So the lines of a query are read as what its clauses do with variables.
-/

namespace CypherBlocks.Cypher

/-! ## 1. Variables and numbers in a clause -/

/-- The words that are no variables wherever they stand. -/
def reserved : List String := ["MATCH", "WHERE", "WITH", "RETURN", "LIMIT", "DISTINCT"] ++ operators

/-- A plain name that is none of the words of the language. -/
def IsVariable (v : String) : Prop := isPlainName v = true ∧ v ∉ reserved

instance (v : String) : Decidable (IsVariable v) := inferInstanceAs (Decidable (_ ∧ _))

section Variables

variable {v : String}

theorem IsVariable.tokens (h : IsVariable v) : tokens v.toList = [.word v] := tokens_plainName h.1

theorem keyword?_eq_none {s : String} (h : s ∉ reserved) : (Token.word s).keyword? = none := by
  rw [Token.keyword?, List.find?_eq_none]
  intro k _ hk
  obtain rfl : k.text = s := of_decide_eq_true hk
  exact h (by cases k <;> decide)

theorem IsVariable.isBody (h : IsVariable v) : IsBody false [.word v] :=
  ⟨.inr (keyword?_eq_none h.2), rfl⟩

theorem IsVariable.mentionsFrom (h : IsVariable v) {ts : List Token}
    (hts : ts.head? ≠ some (.sign '(')) :
    mentionsFrom false (.word v :: ts) = v :: mentionsFrom false ts := by
  have hoperator : v ∉ operators := fun hv => h.2 (List.mem_append_right _ hv)
  rw [Cypher.mentionsFrom, if_neg]
  simp [hoperator, h.1, hts]

theorem Token.IsNumeral.keyword?_eq {t : Token} (h : t.IsNumeral) : t.keyword? = none := by
  cases t with
  | sign c => rfl
  | word s =>
    obtain ⟨c, cs, hs, hc⟩ := h
    rw [Token.keyword?, List.find?_eq_none]
    intro k _ hk
    obtain rfl : k.text = s := of_decide_eq_true hk
    cases k <;> cases hs <;> revert hc <;> decide

theorem Token.IsNumeral.opensType_eq {t : Token} (h : t.IsNumeral) : t.opensType = false := by
  cases t with
  | word s => rfl
  | sign c => rcases h with rfl | rfl <;> rfl

theorem isBody_numerals {ts : List Token} (h : ∀ t ∈ ts, t.IsNumeral) : IsBody false ts := by
  induction ts with
  | nil => rfl
  | cons t ts ih =>
    obtain ⟨ht, hts⟩ := List.forall_mem_cons.mp h
    refine ⟨.inr ht.keyword?_eq, ?_⟩
    rw [ht.opensType_eq]
    exact ih hts

/-- Numbers mention nothing, and at most leave a point behind. -/
theorem mentionsFrom_numerals {ts : List Token} (h : ∀ t ∈ ts, t.IsNumeral) (afterPoint : Bool)
    (rest : List Token) :
    ∃ point, mentionsFrom afterPoint (ts ++ rest) = mentionsFrom point rest := by
  induction ts generalizing afterPoint with
  | nil => exact ⟨afterPoint, rfl⟩
  | cons t ts ih =>
    obtain ⟨ht, hts⟩ := List.forall_mem_cons.mp h
    cases t with
    | sign c => exact ih hts _
    | word s =>
      obtain ⟨c, cs, hs, hc⟩ := ht
      have hplain : isPlainName s = false := by
        have hletter := isLetter_of_isDigit hc
        rw [isPlainName, hs]
        simp [hletter]
      rw [List.cons_append, Cypher.mentionsFrom, if_pos (by simp [hplain])]
      exact ih hts false

end Variables

/-! ## 2. Conditions -/

/-- What may follow a part of a condition: its end, a parenthesis or an operator. -/
def EndsPart (rest : List Token) : Prop :=
  ∀ t ∈ rest.head?, t = .sign ')' ∨ ∃ s ∈ operators, t = .word s

theorem EndsPart.mentionsFrom_eq {rest : List Token} (h : EndsPart rest) (afterPoint : Bool) :
    mentionsFrom afterPoint rest = mentionsFrom false rest := by
  cases rest with
  | nil => rfl
  | cons t rest =>
    rcases h t rfl with rfl | ⟨s, hs, rfl⟩
    · rfl
    · simp [mentionsFrom, hs]

/-- Tokens that stand in a condition and mention some variables. -/
structure Mentions (ts : List Token) (vs : List String) : Prop where
  isBody : IsBody false ts
  mentions : ∀ rest, EndsPart rest →
    mentionsFrom false (ts ++ rest) = vs ++ mentionsFrom false rest

theorem Mentions.mentionsFrom_eq {ts : List Token} {vs : List String} (h : Mentions ts vs) :
    mentionsFrom false ts = vs := by
  simpa [mentionsFrom] using h.mentions [] (by simp [EndsPart])

theorem mentions_nil : Mentions [] [] := ⟨rfl, fun _ _ => rfl⟩

theorem keyword?_operator : ∀ s ∈ operators, (Token.word s).keyword? = none := by decide

theorem Mentions.operator {ts us : List Token} {vs ws : List String} {s : String}
    (hs : s ∈ operators) (h : Mentions ts vs) (h' : Mentions us ws) :
    Mentions (ts ++ .word s :: us) (vs ++ ws) := by
  refine ⟨h.isBody.append (.word (keyword?_operator s hs) h'.isBody), fun rest hrest => ?_⟩
  have hend : EndsPart (.word s :: (us ++ rest)) := by
    rintro t ⟨⟩
    exact .inr ⟨s, hs, rfl⟩
  rw [List.append_assoc, List.cons_append, h.mentions _ hend, mentionsFrom, if_pos (by simp [hs]),
    h'.mentions rest hrest, List.append_assoc]

theorem Mentions.parentheses {ts : List Token} {vs : List String} (h : Mentions ts vs) :
    Mentions (.sign '(' :: ts ++ [.sign ')']) vs := by
  refine ⟨⟨.inr rfl, h.isBody.append ⟨.inr rfl, rfl⟩⟩, fun rest _ => ?_⟩
  have hend : EndsPart (.sign ')' :: rest) := by
    rintro t ⟨⟩
    exact .inl rfl
  rw [List.cons_append, List.cons_append, List.append_assoc, List.singleton_append, mentionsFrom]
  exact h.mentions _ hend

/-- A comparison of a property of a variable, with a number if it asks for one. -/
structure Comparison.IsLegible (c : Comparison) : Prop where
  operand : ∃ v key, IsVariable v ∧ IsVariable key ∧ c.property = Cypher.property v key
  number : ∀ p x, c = .atLeast p x → x.isFinite = true

theorem toList_property_eq (v key : String) :
    (property v key).toList = v.toList ++ ('.' :: key.toList) := by
  simp [property]

theorem tokens_property {v key : String} (hv : IsVariable v) (hkey : IsVariable key) :
    tokens (property v key).toList = [.word v, .sign '.', .word key] := by
  have hpoint : tokens ('.' :: key.toList) = [.sign '.', .word key] := by
    change tokens (['.'] ++ key.toList) = _
    rw [tokens_append_left rfl, hkey.tokens]
    rfl
  rw [toList_property_eq, tokens_append_right rfl, hv.tokens, hpoint]
  rfl

/-- A property, followed by what mentions nothing, mentions its variable. -/
theorem mentions_operand {v key : String} (hv : IsVariable v) (hkey : IsVariable key)
    {ts : List Token} (hbody : IsBody false ts)
    (hquiet : ∀ rest, EndsPart rest → mentionsFrom false (ts ++ rest) = mentionsFrom false rest) :
    Mentions (.word v :: .sign '.' :: .word key :: ts) [v] := by
  refine ⟨.word (keyword?_eq_none hv.2) (.sign rfl (.word (keyword?_eq_none hkey.2) hbody)), ?_⟩
  intro rest hrest
  have hpoint : (Token.sign '.' :: .word key :: (ts ++ rest)).head? ≠ some (.sign '(') := by simp
  rw [List.cons_append, List.cons_append, List.cons_append, hv.mentionsFrom hpoint]
  simp [mentionsFrom, hquiet rest hrest]

theorem IsVariable.point_not_mem {v : String} (h : IsVariable v) : '.' ∉ v.toList := fun hpoint =>
  absurd (isLetterOrDigit_of_isPlainName h.1 '.' hpoint) (by decide)

theorem Comparison.frame_equal (p v : String) :
    (Comparison.equal p v).frame = p.toList ++ " = ''".toList := by
  simp [frame, segments, Segment.frame]

theorem Comparison.frame_resembles (p v : String) :
    (Comparison.resembles p v).frame = p.toList ++ " =~ ''".toList := by
  simp [frame, segments, Segment.frame]

theorem Comparison.frame_contains (p v : String) :
    (Comparison.contains p v).frame = "toLower(".toList ++
      (p.toList ++ ") CONTAINS ''".toList) := by
  simp [frame, segments, Segment.frame]

theorem Comparison.frame_atLeast (p : String) (x : Double) :
    (Comparison.atLeast p x).frame = p.toList ++ (" >= ".toList ++ x.text.toList) := by
  simp [frame, segments, Segment.frame]

theorem Comparison.IsLegible.mentions {c : Comparison} (h : c.IsLegible) :
    Mentions (tokens c.frame) [c.node] := by
  obtain ⟨⟨v, key, hv, hkey, hproperty⟩, hnumber⟩ := h
  rw [Comparison.node_eq hv.point_not_mem hproperty]
  have hoperand : tokens c.property.toList = [.word v, .sign '.', .word key] :=
    hproperty ▸ tokens_property hv hkey
  cases c with
  | equal p value =>
    have hsigns : tokens " = ''".toList = signs "=''" := by decide
    rw [property] at hoperand
    rw [frame_equal, tokens_append_right rfl, hoperand, hsigns]
    exact mentions_operand hv hkey (.sign rfl (.sign rfl (.sign rfl rfl))) fun _ _ => rfl
  | resembles p value =>
    have hsigns : tokens " =~ ''".toList = signs "=~''" := by decide
    rw [property] at hoperand
    rw [frame_resembles, tokens_append_right rfl, hoperand, hsigns]
    exact mentions_operand hv hkey (.sign rfl (.sign rfl (.sign rfl (.sign rfl rfl)))) fun _ _ =>
      rfl
  | contains p value =>
    have hcall : tokens "toLower(".toList = [.word "toLower", .sign '('] := by decide
    have hsigns : tokens ") CONTAINS ''".toList = .sign ')' :: .word "CONTAINS" :: signs "''" := by
      decide
    rw [property] at hoperand
    rw [frame_contains, tokens_append_left rfl, tokens_append_right rfl, hcall,
      hoperand, hsigns]
    have hmentions : Mentions (.word v :: .sign '.' :: .word key :: .sign ')' :: .word "CONTAINS" ::
        signs "''") [v] := by
      refine mentions_operand hv hkey ?_ fun rest _ => ?_
      · exact .sign rfl (.word (by decide) (.sign rfl (.sign rfl rfl)))
      · simp [mentionsFrom, operators, signs]
    refine ⟨.word (by decide) (.sign rfl hmentions.isBody), fun rest hrest => ?_⟩
    -- the name of a function is no variable
    rw [← hmentions.mentions rest hrest]
    simp [mentionsFrom]
  | atLeast p x =>
    have hsigns : tokens " >= ".toList = signs ">=" := by decide
    have hnumerals := isNumeral_tokens (isNumeralChar_double (hnumber p x rfl))
    rw [property] at hoperand
    rw [frame_atLeast, tokens_append_right rfl, tokens_append_left rfl,
      hoperand, hsigns]
    refine mentions_operand hv hkey (.sign rfl (.sign rfl (isBody_numerals hnumerals))) ?_
    intro rest hrest
    obtain ⟨point, hpoint⟩ := mentionsFrom_numerals hnumerals false rest
    exact hpoint.trans (hrest.mentionsFrom_eq point)

/-- Parts of a condition with an operator between them. -/
theorem mentions_intercalate {α : Type} {s : String} (hs : s ∈ operators) {separator : List Char}
    (htokens : tokens separator = [.word s]) (hfirst : ∀ cs, beginsApart (separator ++ cs) = true)
    (hlast : endsApart separator = true) {frame : α → List Char} {vs : α → List String}
    {xs : List α} (h : ∀ x ∈ xs, Mentions (tokens (frame x)) (vs x)) :
    Mentions (tokens (separator.intercalate (xs.map frame))) (xs.flatMap vs) := by
  induction xs with
  | nil => exact mentions_nil
  | cons x xs ih =>
    obtain ⟨hx, hxs⟩ := List.forall_mem_cons.mp h
    by_cases hnil : xs = []
    · rw [hnil]
      simpa using hx
    · rw [List.map_cons, List.intercalate_cons_of_ne_nil (by simpa using hnil), List.append_assoc,
        tokens_append_right (hfirst _), tokens_append_left hlast, htokens, List.flatMap_cons]
      exact hx.operator hs (ih hxs)

/-- The frame of alternatives. -/
def alternativesFrame (cs : List Comparison) : List Char :=
  (alternativesSegments cs).flatMap Segment.frame

theorem mentions_alternatives {cs : List Comparison} (h : ∀ c ∈ cs, c.IsLegible) :
    Mentions (tokens (alternativesFrame cs)) (cs.map Comparison.node) := by
  unfold alternativesFrame alternativesSegments
  split
  · exact mentions_nil
  · exact (h _ List.mem_cons_self).mentions
  · have hjoined : Mentions (tokens (" OR ".toList.intercalate (cs.map Comparison.frame)))
        (cs.flatMap fun c => [c.node]) :=
      mentions_intercalate (s := "OR") (by decide) (by decide) (fun _ => rfl) rfl
        fun c hc => (h c hc).mentions
    have hopen : tokens "(".toList = [.sign '('] := by decide
    have hclose : tokens ")".toList = [.sign ')'] := by decide
    have hframe : ∀ cs : List Comparison, List.flatMap Segment.frame
        (.code "(" :: joined " OR " (cs.map Comparison.segments) ++ [.code ")"]) =
        "(".toList ++ (" OR ".toList.intercalate (cs.map Comparison.frame) ++ ")".toList) := by
      intro cs
      rw [List.flatMap_append, List.flatMap_cons, frame_joined, List.map_map, List.append_assoc]
      rfl
    rw [hframe, tokens_append_left rfl, tokens_append_right rfl, hopen, hclose]
    rw [← List.map_eq_flatMap] at hjoined
    exact hjoined.parentheses

/-! ## 3. Lists of variables -/

/-- Tokens that list variables. -/
structure Lists (ts : List Token) (vs : List String) : Prop where
  isBody : IsBody false ts
  listed : listed? ts = some vs

theorem lists_names {v : String} {vs : List String} (h : ∀ w ∈ v :: vs, IsVariable w) :
    Lists (tokens (String.intercalate ", " (v :: vs)).toList) (v :: vs) := by
  have hcomma : tokens ", ".toList = [.sign ','] := by decide
  induction vs generalizing v with
  | nil =>
    have hv : IsVariable v := h v List.mem_cons_self
    rw [String.intercalate_singleton, hv.tokens]
    exact ⟨hv.isBody, rfl⟩
  | cons w vs ih =>
    obtain ⟨hv, hvs⟩ := List.forall_mem_cons.mp h
    have hrest := ih hvs
    rw [String.intercalate_cons_of_ne_nil (by simp), String.toList_append, String.toList_append,
      List.append_assoc, tokens_append_right rfl, tokens_append_left rfl,
      hv.tokens, hcomma]
    refine ⟨.word (keyword?_eq_none hv.2) (.sign rfl hrest.isBody), ?_⟩
    change (listed? (tokens (String.intercalate ", " (w :: vs)).toList)).map (v :: ·) = _
    rw [hrest.listed]
    rfl

/-! ## 4. Relationships -/

/-- What may stand in the brackets of a relationship: no variable, but types and a range. -/
structure IsRelationship (ts : List Token) : Prop where
  isBody : IsBody false ts
  anonymous : nextWord? ts = none
  bracket_not_mem : .sign ']' ∉ ts

section Types

variable {ts us : List Token}

/-- What a list of types is made of: it is no variable, and it closes no bracket. -/
structure IsTypes (ts : List Token) : Prop where
  isBody : IsBody true ts
  bracket_not_mem : .sign ']' ∉ ts

theorem isTypes_typeSegment (s : String) : IsTypes (tokens (typeSegment s).frame) := by
  unfold typeSegment
  split
  · rename_i hplain
    change IsTypes (tokens s.toList)
    rw [tokens_plainName hplain]
    exact ⟨⟨.inl rfl, rfl⟩, by simp⟩
  · have hname : tokens (Segment.name s).frame = signs "\x60\x60" := by
      change tokens "\x60\x60".toList = _
      decide
    rw [hname]
    exact ⟨⟨.inl rfl, .inr rfl, rfl⟩, by decide⟩

theorem isTypes_typeSegments (s : String) (names : List String) :
    IsTypes (tokens ("|".toList.intercalate ((s :: names).map fun s =>
      (typeSegment s).frame))) := by
  have hbar : tokens "|".toList = [.sign '|'] := by decide
  induction names generalizing s with
  | nil => simpa using isTypes_typeSegment s
  | cons t names ih =>
    have hs := isTypes_typeSegment s
    rw [List.map_cons, List.intercalate_cons_of_ne_nil (by simp), List.append_assoc,
      tokens_append_right rfl, tokens_append_left rfl, hbar]
    have hrest := ih t
    refine ⟨hs.isBody.append ⟨.inr rfl, hrest.isBody⟩, ?_⟩
    rw [List.mem_append, List.singleton_append, List.mem_cons, not_or, not_or]
    exact ⟨hs.bracket_not_mem, by decide, hrest.bracket_not_mem⟩

theorem isRelationship_hops {cs : List Char} (h : ∀ c ∈ cs, IsNumeralChar c) :
    IsRelationship (tokens ('*' :: cs)) := by
  have hnumerals := isNumeral_tokens h
  refine ⟨.sign rfl (isBody_numerals hnumerals), rfl, ?_⟩
  change .sign ']' ∉ .sign '*' :: tokens cs
  rw [List.mem_cons, not_or]
  refine ⟨by decide, fun hmem => ?_⟩
  rcases hnumerals _ hmem with heq | heq <;> revert heq <;> decide

theorem IsTypes.isRelationship (h : IsTypes ts) (h' : IsRelationship us) :
    IsRelationship (.sign ':' :: (ts ++ us)) := by
  refine ⟨⟨.inr rfl, h.isBody.append h'.isBody⟩, rfl, ?_⟩
  rw [List.mem_cons, List.mem_append, not_or, not_or]
  exact ⟨by decide, h.bracket_not_mem, h'.bracket_not_mem⟩

theorem isRelationship_typeSegments (types : List String) {range : List Char}
    (hfirst : beginsApart range = true) (h : IsRelationship (tokens range)) :
    IsRelationship (tokens ((typeSegments types).flatMap Segment.frame ++ range)) := by
  have hcolon : tokens ":".toList = [.sign ':'] := by decide
  unfold typeSegments
  cases usable types with
  | nil => exact h
  | cons name names =>
    have htypes := isTypes_typeSegments name names
    have hframe : (fun x => List.flatMap Segment.frame x) ∘ (fun s => [typeSegment s]) =
        fun s => (typeSegment s).frame := by
      funext s
      simp
    rw [List.flatMap_cons, frame_joined, List.map_map, hframe, tokens_append_right hfirst]
    change IsRelationship (tokens (":".toList ++ _) ++ _)
    rw [tokens_append_left rfl, hcolon]
    exact htypes.isRelationship h

end Types

section Paths

variable {source target : String} {ts : List Token} {arrow : Arrow}

theorem IsRelationship.relationship?_eq (h : IsRelationship ts) (arrow : Arrow) {rest : List Token}
    (hrest : rest.head? ≠ some (.sign '>')) :
    relationship? (signs arrow.sides.1 ++ (ts ++ (signs arrow.sides.2 ++ rest))) = some rest := by
  have hword : ∀ us, nextWord? (ts ++ .sign ']' :: us) = none := by
    intro us
    cases hts : ts with
    | nil => rfl
    | cons t ts' =>
      cases t with
      | sign c => rfl
      | word s =>
        have hsome := h.anonymous
        rw [hts] at hsome
        cases hsome
  -- no bracket is among the tokens, so that the first one closes the relationship
  have hdrop : ∀ us : List Token,
      (ts ++ .sign ']' :: us).dropWhile (fun t => !decide (t = .sign ']')) = .sign ']' :: us := by
    intro us
    rw [List.dropWhile_append_of_pos]
    · simp
    · intro t ht
      rw [Bool.not_eq_true', decide_eq_false_iff_not]
      rintro rfl
      exact h.bracket_not_mem ht
  cases arrow with
  | undirected =>
    simp [relationship?, dropSign, Arrow.sides, signs, hword, hdrop, List.dropPrefix?, hrest]
  | outgoing => simp [relationship?, dropSign, Arrow.sides, signs, hword, hdrop, List.dropPrefix?]
  | incoming =>
    simp [relationship?, dropSign, Arrow.sides, signs, hword, hdrop, List.dropPrefix?, hrest]

/-- Two nodes and what stands between them. -/
def endsTokens (source : String) (arrow : Arrow) (ts : List Token) (target : String) : List Token :=
  .sign '(' :: .word source :: .sign ')' ::
    (signs arrow.sides.1 ++ (ts ++ (signs arrow.sides.2 ++ [.sign '(', .word target, .sign ')'])))

theorem node?_eq (v : String) (rest : List Token) :
    node? (.sign '(' :: .word v :: .sign ')' :: rest) = some (v, rest) := by
  simp [node?, nextWord?, properties?, signs, List.dropPrefix?]

theorem IsRelationship.ends?_eq (h : IsRelationship ts) (source target : String) (arrow : Arrow)
    (rest : List Token) :
    ends? (endsTokens source arrow ts target ++ rest) = some ((source, target), rest) := by
  have hend : (Token.sign '(' :: .word target :: .sign ')' :: rest).head? ≠ some (.sign '>') := by
    simp
  have hbetween := h.relationship?_eq arrow hend
  simp [ends?, endsTokens, node?_eq, hbetween]

theorem isBody_signs {s : String} (h : s.toList.all (fun c => !(Token.sign c).opensType) = true) :
    IsBody false (signs s) := by
  unfold signs
  revert h
  induction s.toList with
  | nil => exact fun _ => rfl
  | cons c cs ih =>
    intro h
    rw [List.all_cons, Bool.and_eq_true, Bool.not_eq_true'] at h
    exact .sign h.1 (ih h.2)

theorem IsRelationship.isBody_endsTokens (h : IsRelationship ts) (hsource : IsVariable source)
    (htarget : IsVariable target) (arrow : Arrow) :
    IsBody false (endsTokens source arrow ts target) := by
  have hsides : IsBody false (signs arrow.sides.1) ∧ IsBody false (signs arrow.sides.2) := by
    cases arrow <;> exact ⟨isBody_signs (by decide), isBody_signs (by decide)⟩
  refine .sign rfl (.word (keyword?_eq_none hsource.2) (.sign rfl (hsides.1.append (h.isBody.append
    (hsides.2.append (.sign rfl (.word (keyword?_eq_none htarget.2) (.sign rfl rfl))))))))

end Paths

/-! ## 5. Clauses -/

/-- A clause about variables that can be told from the words around them. -/
def Clause.IsLegible : Clause → Prop
  | .matchNode v | .matchId v _ => IsVariable v
  | .matchWhere v c => IsVariable v ∧ c.IsLegible
  | .matchPath path source _ _ _ target | .matchShortest path source _ target =>
    IsVariable path ∧ IsVariable source ∧ IsVariable target
  | .filter conditions => ∀ cs ∈ conditions, ∀ c ∈ cs, c.IsLegible
  | .carry names _ | .returnDistinct names => names ≠ [] ∧ ∀ v ∈ names, IsVariable v
  | .note _ | .limit _ => True

section Clauses

variable {v : String}

/-- A variable stands for itself between other signs. -/
theorem IsVariable.tokens_between (hv : IsVariable v) {as bs : List Char}
    (has : endsApart as = true) (hbs : beginsApart bs = true) :
    Cypher.tokens (as ++ (v.toList ++ bs)) = Cypher.tokens as ++ .word v :: Cypher.tokens bs := by
  rw [tokens_append_left has, tokens_append_right hbs, hv.tokens]
  rfl

theorem readsAs_node (hv : IsVariable v) :
    ReadsAs [.word "MATCH", .sign '(', .word v, .sign ')'] [.pattern [] [v]] := by
  refine .single .pattern (.sign rfl (.word (keyword?_eq_none hv.2) (.sign rfl rfl))) ?_
  simp [Keyword.steps?, pattern?, nextWord?, node?_eq]

theorem tokens_match : tokens "MATCH (".toList = [.word "MATCH", .sign '('] := by decide

theorem readsAs_matchNode (hv : IsVariable v) :
    ReadsAs (tokens (Clause.matchNode v).frame) [.pattern [] [v]] := by
  have hframe : (Clause.matchNode v).frame = "MATCH (".toList ++ (v.toList ++ ")".toList) := by
    simp [Clause.frame, Clause.segments, Segment.frame, Clause.text]
  have hclose : tokens ")".toList = [.sign ')'] := by decide
  rw [hframe, hv.tokens_between rfl rfl, tokens_match, hclose]
  exact readsAs_node hv

theorem readsAs_matchId (hv : IsVariable v) (id : String) :
    ReadsAs (tokens (Clause.matchId v id).frame) [.pattern [] [v]] := by
  have hframe : (Clause.matchId v id).frame =
      "MATCH (".toList ++ (v.toList ++ " \x7bid: ''\x7d)".toList) := by
    simp [Clause.frame, Clause.segments, Segment.frame]
  have hclose : tokens " \x7bid: ''\x7d)".toList =
      [.sign '\x7b', .word "id", .sign ':', .sign '\'', .sign '\'', .sign '\x7d', .sign ')'] := by
    decide
  rw [hframe, hv.tokens_between rfl rfl, tokens_match, hclose]
  refine .single .pattern (.sign rfl (.word (keyword?_eq_none hv.2) ?_)) ?_
  · exact .sign rfl (.word (by decide) ⟨.inr rfl, .inr rfl, .inr rfl, .inr rfl, .inr rfl, rfl⟩)
  · simp [Keyword.steps?, pattern?, nextWord?, node?, properties?, signs, List.dropPrefix?]

theorem Mentions.readsAs {ts : List Token} {vs : List String} (h : Mentions ts vs) :
    ReadsAs (.word "WHERE" :: ts) [.condition vs] := by
  refine .single .condition h.isBody ?_
  rw [Keyword.steps?, h.mentionsFrom_eq]

theorem readsAs_matchWhere (hv : IsVariable v) {c : Comparison} (hc : c.IsLegible) :
    ReadsAs (tokens (Clause.matchWhere v c).frame) [.pattern [] [v], .condition [c.node]] := by
  have hframe : (Clause.matchWhere v c).frame =
      "MATCH (".toList ++ (v.toList ++ (") WHERE ".toList ++ c.frame)) := by
    simp [Clause.frame, Clause.segments, Segment.frame, Comparison.frame]
  have hclose : tokens ") WHERE ".toList = [.sign ')', .word "WHERE"] := by decide
  rw [hframe, hv.tokens_between rfl rfl, tokens_append_left rfl, tokens_match, hclose]
  exact (readsAs_node hv).append hc.mentions.readsAs

theorem readsAs_filter {conditions : List (List Comparison)}
    (h : ∀ cs ∈ conditions, ∀ c ∈ cs, c.IsLegible) :
    ReadsAs (tokens (Clause.filter conditions).frame)
      [.condition (conditions.flatten.map Comparison.node)] := by
  have hframe : (Clause.filter conditions).frame =
      "WHERE ".toList ++ " AND ".toList.intercalate (conditions.map alternativesFrame) := by
    rw [Clause.frame, Clause.segments, List.flatMap_cons, frame_joined, List.map_map]
    rfl
  have hopen : tokens "WHERE ".toList = [.word "WHERE"] := by decide
  have hmentions : Mentions (tokens (" AND ".toList.intercalate (conditions.map alternativesFrame)))
      (conditions.flatMap (·.map Comparison.node)) :=
    mentions_intercalate (s := "AND") (by decide) (by decide) (fun _ => rfl) rfl
      fun cs hcs => mentions_alternatives (h cs hcs)
  rw [hframe, tokens_append_left rfl, hopen]
  rw [List.map_flatten, ← List.flatMap_def]
  exact hmentions.readsAs

theorem readsAs_limit (n : Int) : ReadsAs (.word "LIMIT" :: tokens (toString n).toList) [] := by
  have hnumerals := isNumeral_tokens (isNumeralChar_int n)
  refine .single .limit (isBody_numerals hnumerals) ?_
  obtain ⟨point, hquiet⟩ := mentionsFrom_numerals hnumerals false []
  rw [List.append_nil] at hquiet
  rw [Keyword.steps?, hquiet]
  rfl

theorem readsAs_carry {names : List String} (hne : names ≠ []) (h : ∀ v ∈ names, IsVariable v)
    (cap : Option Int) : ReadsAs (tokens (Clause.carry names cap).frame) [.carry names] := by
  have hopen : tokens "WITH ".toList = [.word "WITH"] := by decide
  obtain ⟨v, vs, rfl⟩ := List.exists_cons_of_ne_nil hne
  have hlists := lists_names h
  have hcarry : ReadsAs (.word "WITH" :: tokens (String.intercalate ", " (v :: vs)).toList)
      [.carry (v :: vs)] :=
    .single .carry hlists.isBody (by rw [Keyword.steps?, hlists.listed]; rfl)
  cases cap with
  | none =>
    have hframe : (Clause.carry (v :: vs) none).frame =
        "WITH ".toList ++ (String.intercalate ", " (v :: vs)).toList := by
      rw [← String.toList_append]
      exact List.append_nil _
    rw [hframe, tokens_append_left rfl, hopen]
    exact hcarry
  | some n =>
    have hframe : (Clause.carry (v :: vs) (some n)).frame =
        "WITH ".toList ++ ((String.intercalate ", " (v :: vs)).toList ++
          (" LIMIT ".toList ++ (toString n).toList)) := by
      change ("WITH " ++ String.intercalate ", " (v :: vs) ++ " LIMIT " ++ toString n).toList ++
        [] = _
      simp only [String.toList_append, List.append_assoc, List.append_nil]
    have hlimit : tokens " LIMIT ".toList = [.word "LIMIT"] := by decide
    rw [hframe, tokens_append_left rfl, tokens_append_right rfl,
      tokens_append_left rfl, hopen, hlimit]
    exact hcarry.append (readsAs_limit n)

theorem readsAs_returnDistinct {names : List String} (hne : names ≠ [])
    (h : ∀ v ∈ names, IsVariable v) :
    ReadsAs (tokens (Clause.returnDistinct names).frame) [.result names] := by
  have hopen : tokens "RETURN DISTINCT ".toList = [.word "RETURN", .word "DISTINCT"] := by decide
  have hframe : (Clause.returnDistinct names).frame =
      "RETURN DISTINCT ".toList ++ (String.intercalate ", " names).toList := by
    rw [← String.toList_append]
    exact List.append_nil _
  obtain ⟨v, vs, rfl⟩ := List.exists_cons_of_ne_nil hne
  have hlists := lists_names h
  rw [hframe, tokens_append_left rfl, hopen]
  refine .single .result (.word (by decide) hlists.isBody) ?_
  have hlisted := hlists.listed
  generalize tokens (String.intercalate ", " (v :: vs)).toList = ts at hlisted
  simp [Keyword.steps?, List.dropPrefix?, hlisted]

variable {path source target : String}

theorem tokens_ends (hsource : IsVariable source) (htarget : IsVariable target) (arrow : Arrow)
    (body rest : List Char) :
    tokens
      ('(' :: (source.toList ++ (')' :: (arrow.sides.1.toList ++ (body ++ (arrow.sides.2.toList ++
      ('(' :: (target.toList ++ (')' :: rest))))))))) =
        endsTokens source arrow (tokens body) target ++ tokens rest := by
  have hopen : ∀ cs, tokens ('(' :: cs) = .sign '(' :: tokens cs := fun _ => rfl
  have hclose : ∀ cs, tokens (')' :: cs) = .sign ')' :: tokens cs := fun _ => rfl
  have hsides : tokens arrow.sides.1.toList = signs arrow.sides.1 ∧
      tokens arrow.sides.2.toList = signs arrow.sides.2 := by
    cases arrow <;> decide
  have hfirst : ∀ cs, beginsApart (arrow.sides.2.toList ++ cs) = true := by
    intro cs
    cases arrow <;> rfl
  rw [hopen, tokens_append_right rfl, hclose, tokens_append_left (by cases arrow <;> rfl),
    tokens_append_right (hfirst _), tokens_append_left (by cases arrow <;> rfl), hopen,
    tokens_append_right rfl, hclose, hsource.tokens, htarget.tokens, hsides.1, hsides.2]
  simp [endsTokens]

theorem isNumeralChar_points : ∀ c ∈ "..".toList, IsNumeralChar c := by simp [IsNumeralChar]

theorem readsAs_matchPath (hpath : IsVariable path) (hsource : IsVariable source)
    (htarget : IsVariable target) (types : List String) (depth : Int) (arrow : Arrow) :
    ReadsAs (tokens (Clause.matchPath path source types depth arrow target).frame)
      [.pattern [source] [path, target]] := by
  let hops := (toString Clause.fewestHops).toList ++ ("..".toList ++ (toString depth).toList)
  let body := (typeSegments types).flatMap Segment.frame ++ '*' :: hops
  have hframe : (Clause.matchPath path source types depth arrow target).frame =
      "MATCH ".toList ++ (path.toList ++ (" = ".toList ++ ('(' :: (source.toList ++ (')' ::
        (arrow.sides.1.toList ++ (body ++ (arrow.sides.2.toList ++
          ('(' :: (target.toList ++ (')' :: []))))))))))) := by
    simp [Clause.frame, Clause.segments, Segment.frame, body, hops, -Int.toString_eq_repr]
  have hmatch : tokens "MATCH ".toList = [.word "MATCH"] := by decide
  have hequal : tokens " = ".toList = [.sign '='] := by decide
  have hbody : IsRelationship (tokens body) := by
    refine isRelationship_typeSegments types rfl (isRelationship_hops ?_)
    exact List.forall_mem_append.mpr ⟨isNumeralChar_int _,
      List.forall_mem_append.mpr ⟨isNumeralChar_points, isNumeralChar_int depth⟩⟩
  have hends := hbody.ends?_eq source target arrow []
  -- a walk is not taken for a shortest path, which begins with a word
  have hshortest : (endsTokens source arrow (tokens body) target).dropPrefix?
      [.word "shortestPath", .sign '('] = none := by
    simp [endsTokens, List.dropPrefix?]
  rw [List.append_nil] at hends
  rw [hframe, hpath.tokens_between rfl rfl, tokens_append_left rfl,
    tokens_ends hsource htarget, hmatch, hequal, show tokens [] = [] from rfl, List.append_nil]
  refine .single .pattern (.word (keyword?_eq_none hpath.2)
    (.sign rfl (hbody.isBody_endsTokens hsource htarget arrow))) ?_
  simp [Keyword.steps?, pattern?, nextWord?, signs, List.dropPrefix?, hshortest, hends]

theorem readsAs_matchShortest (hpath : IsVariable path) (hsource : IsVariable source)
    (htarget : IsVariable target) (hops : Int) :
    ReadsAs (tokens (Clause.matchShortest path source hops target).frame)
      [.pattern [source, target] [path]] := by
  let body := '*' :: ("..".toList ++ (toString hops).toList)
  have hframe : (Clause.matchShortest path source hops target).frame =
      "MATCH ".toList ++
        (path.toList ++ (" = shortestPath(".toList ++ ('(' :: (source.toList ++ (')' ::
        (Arrow.undirected.sides.1.toList ++ (body ++ (Arrow.undirected.sides.2.toList ++
          ('(' :: (target.toList ++ (')' :: ")".toList))))))))))) := by
    simp [Clause.frame, Clause.segments, Segment.frame, Clause.text, relationship, Arrow.sides,
      body, -Int.toString_eq_repr]
  have hmatch : tokens "MATCH ".toList = [.word "MATCH"] := by decide
  have hequal : tokens " = shortestPath(".toList = [.sign '=', .word "shortestPath",
      .sign '('] := by
    decide
  have hclose : tokens ")".toList = [.sign ')'] := by decide
  have hbody : IsRelationship (tokens body) :=
    isRelationship_hops (List.forall_mem_append.mpr ⟨isNumeralChar_points, isNumeralChar_int hops⟩)
  have hends := hbody.ends?_eq source target .undirected [.sign ')']
  rw [hframe, hpath.tokens_between rfl rfl, tokens_append_left rfl,
    tokens_ends hsource htarget, hmatch, hequal, hclose]
  refine .single .pattern (.word (keyword?_eq_none hpath.2) (.sign rfl (.word (by decide) (.sign rfl
    ((hbody.isBody_endsTokens hsource htarget .undirected).append (.sign rfl rfl)))))) ?_
  simp [Keyword.steps?, pattern?, nextWord?, signs, List.dropPrefix?, hends]

/-- What is read of a legible clause is what the clause does with variables. -/
theorem Clause.IsLegible.readsAs {c : Clause} (h : c.IsLegible) :
    ReadsAs (tokens c.frame) c.scopeSteps := by
  cases c with
  | matchNode v => exact readsAs_matchNode h
  | matchId v id => exact readsAs_matchId h id
  | matchWhere v c => exact readsAs_matchWhere h.1 h.2
  | matchPath path source types depth arrow target =>
    exact readsAs_matchPath h.1 h.2.1 h.2.2 types depth arrow
  | matchShortest path source hops target => exact readsAs_matchShortest h.1 h.2.1 h.2.2 hops
  | filter conditions => exact readsAs_filter h
  | carry names cap => exact readsAs_carry h.1 h.2 cap
  | note s => exact .nil
  | returnDistinct names => exact readsAs_returnDistinct h.1 h.2
  | limit n =>
    have hframe : (Clause.limit n).frame = "LIMIT ".toList ++ (toString n).toList := by
      rw [← String.toList_append]
      exact List.append_nil _
    rw [hframe, tokens_append_left rfl]
    exact readsAs_limit n

/-- The lines of a query are read one after the other. -/
theorem readsAs_linesFrame {clauses : List Clause} (h : ∀ c ∈ clauses, c.IsLegible) :
    ReadsAs (tokens (linesFrame clauses)) (clauses.flatMap Clause.scopeSteps) := by
  unfold linesFrame
  induction clauses with
  | nil => exact .nil
  | cons c clauses ih =>
    obtain ⟨hc, hclauses⟩ := List.forall_mem_cons.mp h
    by_cases hnil : clauses = []
    · rw [hnil]
      simpa using hc.readsAs
    · rw [List.map_cons, List.intercalate_cons_of_ne_nil (by simpa using hnil), List.append_assoc,
        tokens_append_right rfl, tokens_append_left rfl, List.flatMap_cons]
      exact hc.readsAs.append (ih hclauses)

end Clauses

end CypherBlocks.Cypher
