import CypherBlocks.Proofs.Comments
import CypherBlocks.Proofs.QueryText
import CypherBlocks.Proofs.ScopedClauses

/-!
# The text of a query is scoped

What a query does with variables is read off its text, under a rule that says which characters end a
line and with it a comment.  If only a line feed does, every query is read as its clauses mean it,
and no variable is out of its scope.  If a carriage return does as well, this holds as long as there
is none in the relationship types that a comment names: what follows it would be read as clauses.
-/

namespace CypherBlocks.Cypher

/-! ## 1. Line ends -/

/-- A line feed in the place of whatever ends a line. -/
def unifyEnd (ends : Char → Bool) (c : Char) : Char := if ends c then '\n' else c

/-- What a query does with variables, if its text can be read. -/
def readQuery? (ends : Char → Bool) (s : String) : Option (List ScopeStep) :=
  let r := readText (String.ofList (s.toList.map (unifyEnd ends)))
  if r.isOutside then readSteps? (tokens r.frame) else none

def Segment.map (f : Char → Char) : Segment → Segment
  | .code s => .code (String.ofList (s.toList.map f))
  | .literal s => .literal (String.ofList (s.toList.map f))
  | .name s => .name (String.ofList (s.toList.map f))

/-- A map of characters that changes nothing but ends of lines. -/
def KeepsLines (f : Char → Char) : Prop := ∀ c, f c = c ∨ isLineEnd c = true ∧ f c = '\n'

theorem keepsLines_unifyEnd {ends : Char → Bool} (h : ∀ c, ends c = true → isLineEnd c = true) :
    KeepsLines (unifyEnd ends) := by
  intro c
  unfold unifyEnd
  split
  · rename_i hc
    exact .inr ⟨h c hc, rfl⟩
  · exact .inl rfl

section Lines

variable {f : Char → Char}

theorem KeepsLines.apply_eq (hf : KeepsLines f) {c : Char} (hc : isLineEnd c = false) :
    f c = c := by
  rcases hf c with heq | ⟨hend, -⟩
  · exact heq
  · rw [hc] at hend
    cases hend

theorem KeepsLines.map_escapeChar (hf : KeepsLines f) (c : Char) :
    (escapeChar c).map f = escapeChar (f c) := by
  have hslash : f '\\' = '\\' := hf.apply_eq rfl
  rcases hf c with heq | ⟨hend, heq⟩
  · rw [heq, escapeChar]
    split <;> simp [hslash, heq]
  · have hplain : escapeChar c = [c] := by
      rw [isLineEnd, Bool.or_eq_true, decide_eq_true_iff, decide_eq_true_iff] at hend
      rcases hend with rfl | rfl <;> rfl
    rw [hplain, heq]
    simp [escapeChar, heq]

theorem KeepsLines.map_escapeBacktick (hf : KeepsLines f) (c : Char) :
    (escapeBacktick c).map f = escapeBacktick (f c) := by
  rcases hf c with heq | ⟨hend, heq⟩
  · rw [heq, escapeBacktick]
    split <;> simp [heq]
  · have hplain : escapeBacktick c = [c] := by
      rw [isLineEnd, Bool.or_eq_true, decide_eq_true_iff, decide_eq_true_iff] at hend
      rcases hend with rfl | rfl <;> rfl
    rw [hplain, heq]
    simp [escapeBacktick, heq]

theorem map_flatMap_eq {g : Char → List Char} (h : ∀ c, (g c).map f = g (f c)) (cs : List Char) :
    (cs.flatMap g).map f = (cs.map f).flatMap g := by
  rw [List.map_flatMap, List.flatMap_map]
  exact congrArg (List.flatMap · cs) (funext h)

theorem KeepsLines.chars_map (hf : KeepsLines f) (s : Segment) :
    (s.map f).chars = s.chars.map f := by
  have hquote : f '\'' = '\'' := hf.apply_eq rfl
  have htick : f '\x60' = '\x60' := hf.apply_eq rfl
  cases s with
  | code s => simp [Segment.map, Segment.chars]
  | literal s =>
    simp [Segment.map, Segment.chars, quote, hquote, ← map_flatMap_eq hf.map_escapeChar]
  | name s =>
    simp [Segment.map, Segment.chars, htick, ← map_flatMap_eq hf.map_escapeBacktick]

theorem KeepsLines.segmentChars_map (hf : KeepsLines f) (segments : List Segment) :
    segmentChars (segments.map (Segment.map f)) = (segmentChars segments).map f := by
  rw [segmentChars, segmentChars, List.flatMap_map, List.map_flatMap]
  exact congrArg (List.flatMap · segments) (funext hf.chars_map)

theorem KeepsLines.frame_map (hf : KeepsLines f) (segments : List Segment) :
    (segments.map (Segment.map f)).flatMap Segment.frame =
      (segments.flatMap Segment.frame).map f := by
  have hquote : f '\'' = '\'' := hf.apply_eq rfl
  have htick : f '\x60' = '\x60' := hf.apply_eq rfl
  have hframe : ∀ s : Segment, (s.map f).frame = s.frame.map f := by
    intro s
    cases s <;> simp [Segment.map, Segment.frame, hquote, htick]
  rw [List.flatMap_map, List.map_flatMap]
  exact congrArg (List.flatMap · segments) (funext hframe)

theorem KeepsLines.isCode_map (hf : KeepsLines f) {s : String} (h : IsCode s) :
    IsCode (String.ofList (s.toList.map f)) := by
  intro c hc
  rw [String.toList_ofList] at hc
  obtain ⟨d, hd, rfl⟩ := List.mem_map.mp hc
  rcases hf d with heq | ⟨-, heq⟩
  · rw [heq]
    exact h d hd
  · rw [heq]
    decide

theorem KeepsLines.legible_map (hf : KeepsLines f) {afterCode : Bool} {segments : List Segment}
    (h : Legible afterCode segments) : Legible afterCode (segments.map (Segment.map f)) := by
  induction segments generalizing afterCode with
  | nil => trivial
  | cons s rest ih =>
    cases s with
    | code s =>
      refine ⟨hf.isCode_map h.1, fun hempty => h.2.1 ?_, ih h.2.2⟩
      simpa using congrArg String.toList hempty
    | literal s => exact ih h
    | name s => exact ⟨h.1, ih h.2⟩

/-- Line ends stand between words like any other blank. -/
theorem KeepsLines.tokensFrom_map (hf : KeepsLines f) (word cs : List Char) :
    tokensFrom word (cs.map f) = tokensFrom word cs := by
  induction cs generalizing word with
  | nil => rfl
  | cons c cs ih =>
    rw [List.map_cons, tokensFrom, tokensFrom, ih, ih]
    rcases hf c with heq | ⟨hend, heq⟩
    · rw [heq]
    · rw [heq]
      rw [isLineEnd, Bool.or_eq_true, decide_eq_true_iff, decide_eq_true_iff] at hend
      rcases hend with rfl | rfl <;> rfl

theorem KeepsLines.map_intercalate (hf : KeepsLines f) (xs : List (List Char)) :
    (['\n'].intercalate xs).map f = ['\n'].intercalate (xs.map (·.map f)) := by
  have hfeed : f '\n' = '\n' := (hf '\n').elim id And.right
  induction xs with
  | nil => rfl
  | cons x xs ih =>
    by_cases hnil : xs = []
    · simp [hnil]
    · rw [List.map_cons, List.intercalate_cons_of_ne_nil hnil,
        List.intercalate_cons_of_ne_nil (by simpa using hnil), ← ih]
      simp [hfeed]

/-- A clause is still one line if no comment is broken. -/
theorem Clause.isLine_map (hf : KeepsLines f) {c : Clause} (hwords : ∀ w ∈ c.words, IsCode w)
    (hnote : ∀ s, c = .note s → ∀ d ∈ s.toList, f d = '\n' → d = '\n') :
    IsLine (c.text.toList.map f) (c.segments.map (Segment.map f)) := by
  by_cases hc : ∃ s, c = .note s
  · obtain ⟨s, rfl⟩ := hc
    have hslash : f '/' = '/' := hf.apply_eq rfl
    have hblank : f ' ' = ' ' := hf.apply_eq rfl
    change IsLine ((comment s).toList.map f) []
    rw [toList_comment, List.map_append, List.map_map]
    refine .inr ⟨rfl, ' ' :: s.toList.map (f ∘ fun c => if c = '\n' then ' ' else c),
      by simp [hslash, hblank], fun hmem => ?_⟩
    rcases List.mem_cons.mp hmem with hfalse | hmem
    · cases hfalse
    · obtain ⟨d, hd, hend⟩ := List.mem_map.mp hmem
      simp only [Function.comp_apply] at hend
      split at hend
      · rw [hblank] at hend
        cases hend
      · rename_i hne
        exact hne (hnote s rfl d hd hend)
  · left
    rw [← c.segmentChars_segments fun s h => hc ⟨s, h⟩, hf.segmentChars_map]
    exact ⟨hf.legible_map (legible_segments hwords), rfl⟩

end Lines

/-! ## 2. Legible clauses -/

theorem IsVariable.isCode {v : String} (h : IsVariable v) : IsCode v := isCode_of_isPlainName h.1

theorem Comparison.IsLegible.isCode {c : Comparison} (h : c.IsLegible) : IsCode c.property := by
  obtain ⟨v, key, hv, hkey, hproperty⟩ := h.operand
  unfold IsCode
  rw [hproperty, toList_property_eq, List.forall_mem_append, List.forall_mem_cons]
  exact ⟨hv.isCode, by decide, hkey.isCode⟩

theorem Clause.IsLegible.isCode_words {c : Clause} (h : c.IsLegible) : ∀ w ∈ c.words, IsCode w := by
  cases c with
  | matchNode v | matchId v id => simpa [words] using IsVariable.isCode h
  | matchWhere v c => simpa [words] using ⟨h.1.isCode, h.2.isCode⟩
  | matchPath path source types depth arrow target | matchShortest path source hops target =>
    simpa [words] using ⟨h.1.isCode, h.2.1.isCode, h.2.2.isCode⟩
  | filter conditions =>
    intro w hw
    obtain ⟨c, hc, rfl⟩ := List.mem_map.mp hw
    obtain ⟨cs, hcs, hc⟩ := List.mem_flatten.mp hc
    exact (h cs hcs c hc).isCode
  | carry names cap | returnDistinct names => exact fun v hv => (h.2 v hv).isCode
  | note s | limit n => simp [words]

/-- A query whose comments are not broken is read line by line. -/
theorem KeepsLines.exists_readText_eq {f : Char → Char} (hf : KeepsLines f) {clauses : List Clause}
    {last : Clause} (hlast : ∀ s, last ≠ .note s)
    (hwords : ∀ c ∈ clauses ++ [last], ∀ w ∈ c.words, IsCode w)
    (hnotes : ∀ s, .note s ∈ clauses → ∀ d ∈ s.toList, f d = '\n' → d = '\n') :
    ∃ ls ns, readText (String.ofList ((linesText (clauses ++ [last])).toList.map f)) =
      .ready ls ns ((linesFrame (clauses ++ [last])).map f) := by
  let lines := clauses.map fun c => (c.text.toList.map f, c.segments.map (Segment.map f))
  have hlines : ∀ l ∈ lines, IsLine l.1 l.2 := by
    intro l hl
    obtain ⟨c, hc, rfl⟩ := List.mem_map.mp hl
    exact Clause.isLine_map hf (hwords c (List.mem_append_left _ hc)) fun s hs => hnotes s (hs ▸ hc)
  -- a clause in the middle is closed by a line feed, the last one by the end of the text
  have htext : (String.ofList ((linesText (clauses ++ [last])).toList.map f)).toList =
      ['\n'].intercalate
        (lines.map (·.1) ++ [segmentChars (last.segments.map (Segment.map f))]) := by
    rw [String.toList_ofList, toList_linesText, hf.segmentChars_map, hf.map_intercalate,
      last.segmentChars_segments hlast, List.map_map, List.map_map, List.map_append]
    rfl
  have hframe : (lines.map (·.2) ++ [last.segments.map (Segment.map f)]).map
      (·.flatMap Segment.frame) = ((clauses ++ [last]).map Clause.frame).map (·.map f) := by
    simp only [lines, List.map_append, List.map_map, List.map_singleton, hf.frame_map]
    refine congrArg (· ++ _) (List.map_congr_left fun c _ => hf.frame_map c.segments)
  have hread := readText_lines hlines
    (hf.legible_map (last.legible_segments (hwords last (by simp)))) htext
  rw [hframe, ← hf.map_intercalate] at hread
  exact ⟨_, _, hread⟩

/-- A query whose comments are not broken is read as what its clauses do with variables. -/
theorem readQuery?_linesText {ends : Char → Bool} (hends : ∀ c, ends c = true → isLineEnd c = true)
    {clauses : List Clause} {last : Clause} (hlast : ∀ s, last ≠ .note s)
    (hlegible : ∀ c ∈ clauses ++ [last], c.IsLegible)
    (hnotes : ∀ s, .note s ∈ clauses → ∀ d ∈ s.toList, ends d = true → d = '\n') :
    readQuery? ends (linesText (clauses ++ [last])) =
      some ((clauses ++ [last]).flatMap Clause.scopeSteps) := by
  have hf := keepsLines_unifyEnd hends
  have hunified : ∀ s, .note s ∈ clauses → ∀ d ∈ s.toList, unifyEnd ends d = '\n' → d = '\n' := by
    intro s hs d hd hend
    unfold unifyEnd at hend
    split at hend
    · rename_i hbreak
      exact hnotes s hs d hd hbreak
    · exact hend
  obtain ⟨ls, ns, hread⟩ :=
    hf.exists_readText_eq hlast (fun c hc => (hlegible c hc).isCode_words) hunified
  have htokens : tokens ((linesFrame (clauses ++ [last])).map (unifyEnd ends)) =
      tokens (linesFrame (clauses ++ [last])) := hf.tokensFrom_map [] _
  rw [readQuery?, hread]
  change readSteps? (tokens ((linesFrame (clauses ++ [last])).map (unifyEnd ends))) = _
  rw [htokens]
  exact (readsAs_linesFrame hlegible).readSteps?_eq

end CypherBlocks.Cypher

namespace CypherBlocks

open Cypher (Clause Comparison IsVariable Names ScopeStep isLineEnd numbered readQuery?)

/-! ## 3. Blocks emit legible clauses -/

theorem Cypher.isVariable_numbered {letter : Char} (hletter : letter ∈ ['n', 'p', 't']) (n : Nat) :
    IsVariable (numbered letter n) := by
  have hreserved : ∀ w ∈ Cypher.reserved, w.toList.head? ∉ [some 'n', some 'p', some 't'] := by
    decide
  have hplain : ∀ c ∈ ['n', 'p', 't'], Cypher.isLetter c = true := by simp [Cypher.isLetter]
  constructor
  · rw [Cypher.isPlainName, numbered, String.toList_ofList, Bool.and_eq_true, List.all_eq_true]
    refine ⟨hplain letter hletter, fun c hc => ?_⟩
    exact Cypher.isLetterOrDigit_of_isDigit (Nat.isDigit_of_mem_toDigits (by decide) (by decide) hc)
  · intro hmem
    have hfirst : (numbered letter n).toList.head? = some letter := by simp [numbered]
    refine hreserved _ hmem ?_
    rw [hfirst]
    exact List.mem_map_of_mem (f := some) hletter

theorem Cypher.Names.Taken.isVariable {names : Names} {v : String} (h : names.Taken v) :
    IsVariable v := by
  rcases h with rfl | ⟨letter, hletter, n, -, rfl⟩
  · decide
  · exact Cypher.isVariable_numbered hletter n

section Blocks

variable {input : EmitInput} {names names' : Names} {p : Params} {o : Output}
  {before : List ScopeStep}

theorem EmitInput.Sound.isVariable_scope (h : input.Sound names before) {v : String}
    (hv : v ∈ input.scope) : IsVariable v :=
  (h.taken v (h.wellScoped.mem_introducedBy (h.scope v hv))).isVariable

theorem EmitInput.Sound.isVariable_binding (h : input.Sound names before) {v : String}
    (hv : input.binding = some v) : IsVariable v :=
  h.isVariable_scope (h.binding v hv)

theorem EmitInput.Sound.isLegible_carry (h : input.Sound names before) {v : String}
    (hv : IsVariable v) (cap : Option Int) :
    (Clause.carry (carried input.scope v) cap).IsLegible := by
  constructor
  · exact List.ne_nil_of_mem (mem_carried.mpr (.inr rfl))
  · intro w hw
    rcases mem_carried.mp hw with hw | rfl
    · exact h.isVariable_scope hw
    · exact hv

/-- A filter on the current variable can be read if its conditions can. -/
theorem EmitInput.Sound.isLegible_filtered (h : input.Sound names before) {v : String}
    (hv : input.binding = some v) {conditions : List (List Comparison)}
    (hconditions : ∀ cs ∈ conditions, ∀ c ∈ cs, c.IsLegible) :
    ∀ c ∈ (CypherBlocks.filtered input v conditions).clauses, c.IsLegible := by
  change ∀ c ∈ [Clause.carry (carried input.scope v) none, .filter conditions], c.IsLegible
  rw [List.forall_mem_cons, List.forall_mem_singleton]
  exact ⟨h.isLegible_carry (h.isVariable_binding hv) none, hconditions⟩

/-- A comparison with a text. -/
theorem Cypher.Comparison.isLegible_of_property {c : Comparison} {v key : String}
    (hv : IsVariable v) (hkey : IsVariable key) (hc : c.property = Cypher.property v key)
    (hnumber : ∀ p x, c ≠ .atLeast p x) : c.IsLegible :=
  ⟨⟨v, key, hv, hkey, hc⟩, fun p x heq => absurd heq (hnumber p x)⟩

theorem Cypher.isLegible_of_mem_comparisons {v key : String} (hv : IsVariable v)
    (hkey : IsVariable key) {terms : List String} {c : Comparison}
    (h : c ∈ Cypher.comparisons (Cypher.property v key) terms) : c.IsLegible := by
  refine Comparison.isLegible_of_property hv hkey (Cypher.property_of_mem_comparisons h) ?_
  rintro p x rfl
  obtain ⟨term, -, hterm⟩ := List.mem_map.mp h
  unfold Comparison.ofTerm at hterm
  split at hterm <;> cases hterm

theorem isLegible_nodeConditions {v : String} (hv : IsVariable v) {q : NodeFilter}
    (hfinite : q.minConfidence.isFinite = true) :
    ∀ cs ∈ labelConditions v q.labels ++ confidenceConditions v q.minConfidence,
      ∀ c ∈ cs, c.IsLegible := by
  rw [List.forall_mem_append]
  constructor
  · intro cs hcs c hc
    unfold labelConditions at hcs
    split at hcs
    · cases hcs
    · rw [List.mem_singleton.mp hcs] at hc
      exact Cypher.isLegible_of_mem_comparisons hv (by decide) hc
  · intro cs hcs c hc
    unfold confidenceConditions at hcs
    split at hcs
    · rw [List.mem_singleton.mp hcs, List.mem_singleton] at hc
      subst hc
      refine ⟨⟨v, "confidence", hv, by decide, rfl⟩, ?_⟩
      rintro p x ⟨⟩
      exact hfinite
    · cases hcs

theorem isLegible_targetCondition {q : ShortestPath} {target : String} (htarget : IsVariable target)
    {c : Comparison} (h : targetCondition q target = .ok c) : c.IsLegible := by
  have hid : IsVariable "id" := by decide
  have hlabel : IsVariable "label" := by decide
  rcases targetCondition_eq_ok_iff.mp h with ⟨-, -, rfl⟩ | ⟨-, -, rfl⟩
  · exact Comparison.isLegible_of_property htarget hid rfl (by simp)
  · exact Comparison.isLegible_of_property htarget hlabel rfl (by simp)

/-- Each clause that a block contributes can be read. -/
theorem Emits.isLegible (h : Emits input names p o names') (hin : input.Sound names before) :
    ∀ c ∈ o.clauses, c.IsLegible := by
  have hentity : IsVariable names.entity := names.taken_entity.isVariable
  have hpath : IsVariable names.path := names.taken_path.isVariable
  have htarget : IsVariable names.target := names.taken_target.isVariable
  have hlabel : IsVariable "label" := by decide
  cases h with
  | start | finish | resultLimit _ => simp [Output.unchanged]
  | andGate | orGate | notGate | edgeFilter _ _ =>
    simp [emitGate, Output.unchanged, Clause.IsLegible]
  | selectFirst _ _ => simpa [Clause.IsLegible] using (by decide : IsVariable Names.canonical)
  | selectLater _ _ => simpa [Clause.IsLegible] using hentity
  | neighborhood hbound _ _ _ _ =>
    simpa [Clause.IsLegible] using ⟨hpath, hin.isVariable_binding hbound, hentity⟩
  | @search q _ =>
    have hcondition :
        (Comparison.contains (Cypher.property names.entity "label") q.query).IsLegible :=
      Comparison.isLegible_of_property hentity hlabel rfl (by simp)
    rw [List.forall_mem_cons, List.forall_mem_cons, List.forall_mem_singleton]
    exact ⟨hentity, by simpa [Clause.IsLegible] using hcondition, hin.isLegible_carry hentity _⟩
  | shortestPath hbound hcondition _ _ =>
    rw [List.forall_mem_cons, List.forall_mem_singleton]
    exact ⟨⟨htarget, isLegible_targetCondition htarget hcondition⟩, hpath,
      hin.isVariable_binding hbound, htarget⟩
  | ontologyFilter hbound _ =>
    refine hin.isLegible_filtered hbound ?_
    rw [List.forall_mem_singleton]
    exact fun c hc => Cypher.isLegible_of_mem_comparisons (hin.isVariable_binding hbound)
      (by decide) hc
  | nodeFilter hbound hfinite _ =>
    exact hin.isLegible_filtered hbound
      (isLegible_nodeConditions (hin.isVariable_binding hbound) hfinite)

end Blocks

/-! ## 4. A query -/

/-- A carriage return in a relationship type that is named in a comment. -/
def Block.BreaksComment (b : Block) : Prop := ∃ t ∈ b.notedTypes, '\r' ∈ (Text.trim t).toList

instance (b : Block) : Decidable b.BreaksComment :=
  inferInstanceAs (Decidable (∃ t ∈ b.notedTypes, '\r' ∈ (Text.trim t).toList))

/-- An assembly whose clauses can be read, and whose comments are broken by nothing but types. -/
structure Reads (done : List Block) (a : Assembly) : Prop where
  tracks : Tracks done a
  isLegible : ∀ c ∈ a.clauses, c.IsLegible
  noted : ∀ s, .note s ∈ a.clauses → '\r' ∈ s.toList → ∃ b ∈ done, b.BreaksComment

theorem reads_empty : Reads [] Assembly.empty :=
  ⟨tracks_empty, by simp [Assembly.empty], by simp [Assembly.empty]⟩

theorem Reads.add {done : List Block} {a : Assembly} {b : Block} {p : Params} {o : Output}
    {names' : Names} (hinv : Reads done a) (hp : b.params = some p)
    (hemits : Emits ⟨a.binding, done.isEmpty, a.scope⟩ a.names p o names') :
    Reads (done ++ [b]) (a.add done.isEmpty o names') := by
  refine ⟨hinv.tracks.add hemits, ?_, fun s hs hreturn => ?_⟩
  · exact List.forall_mem_append.mpr ⟨hinv.isLegible, hemits.isLegible hinv.tracks.input⟩
  · rcases List.mem_append.mp hs with hold | hnew
    · obtain ⟨b', hb', hbreaks⟩ := hinv.noted s hold hreturn
      exact ⟨b', List.mem_append_left _ hb', hbreaks⟩
    · have hbinding : ∀ v, a.binding = some v → '\r' ∉ v.toList := fun v hv hmem =>
        absurd (Cypher.isLetterOrDigit_of_isPlainName
          (hinv.tracks.input.isVariable_binding hv).1 '\r' hmem) (by decide)
      obtain ⟨s', hclauses, hiff⟩ := hemits.clauses_noted (hemits.isNoted_of_note hnew) hbinding
      obtain rfl : s = s' := by simpa [hclauses] using hnew
      refine ⟨b, by simp, ?_⟩
      simpa [Block.BreaksComment, Block.notedTypes, hp] using hiff.mp hreturn

theorem emitChain_reads {chain : List Block} {a : Assembly}
    (h : (emitChain chain).outcome = .ok a) : Reads chain a :=
  emitChain_invariant Reads reads_empty (fun hinv hp hemits => hinv.add hp hemits) h

theorem Reads.isLegible_returned {done : List Block} {a : Assembly} (h : Reads done a)
    (hreturned : a.returned ≠ []) : (Clause.returnDistinct a.returned).IsLegible := by
  refine ⟨hreturned, fun v hv => ?_⟩
  have hscope := h.tracks.returned.2 v hv
  have hinput := h.tracks.input
  exact (hinput.taken v (hinput.wellScoped.mem_introducedBy hscope)).isVariable

/-- A query is read as what its clauses do with variables, under any rule for the ends of lines that
breaks no comment. -/
theorem Reads.readQuery?_eq {done : List Block} {a : Assembly} (h : Reads done a)
    (hreturned : a.returned ≠ []) {ends : Char → Bool}
    (hends : ∀ c, ends c = true → isLineEnd c = true)
    (hbreaks : ends '\r' = true → ∀ b ∈ done, ¬ b.BreaksComment) :
    readQuery? ends (Cypher.linesText (a.clauses ++ .returnDistinct a.returned :: a.capClauses)) =
      some ((a.clauses ++ .returnDistinct a.returned :: a.capClauses).flatMap
        Clause.scopeSteps) := by
  have hcap : ∀ c ∈ a.capClauses, c.IsLegible ∧ ∀ s, c ≠ .note s := by
    unfold Assembly.capClauses
    cases a.cap <;> simp [Clause.IsLegible]
  have hlegible : ∀ c ∈ a.clauses ++ .returnDistinct a.returned :: a.capClauses, c.IsLegible := by
    rw [List.forall_mem_append, List.forall_mem_cons]
    exact ⟨h.isLegible, h.isLegible_returned hreturned, fun c hc => (hcap c hc).1⟩
  have hnotes : ∀ s, .note s ∈ a.clauses ++ .returnDistinct a.returned :: a.capClauses →
      ∀ d ∈ s.toList, ends d = true → d = '\n' := by
    intro s hs d hd hend
    -- only blocks leave notes, the end of the query has none
    have hold : .note s ∈ a.clauses := by
      rcases List.mem_append.mp hs with hold | hlast
      · exact hold
      · rcases List.mem_cons.mp hlast with heq | hmem
        · cases heq
        · exact absurd rfl ((hcap _ hmem).2 s)
    have hcases := hends d hend
    rw [isLineEnd, Bool.or_eq_true, decide_eq_true_iff, decide_eq_true_iff] at hcases
    rcases hcases with heq | rfl
    · exact heq
    · obtain ⟨b, hb, hbroken⟩ := h.noted s hold hd
      exact absurd hbroken (hbreaks hend b hb)
  obtain ⟨clauses, last, hconcat, hlast⟩ := a.query_eq_concat
  rw [hconcat] at hlegible hnotes ⊢
  exact Cypher.readQuery?_linesText hends hlast hlegible fun s hs =>
    hnotes s (List.mem_append_left _ hs)

/-- The query of a chain is scoped, and so it is read. -/
theorem chainQuery_scoped {chain : List Block} {clauses : List Clause}
    (h : chainQuery chain = .ok clauses) :
    Scoped (clauses.flatMap Clause.scopeSteps) ∧
      ∀ ends : Char → Bool, (∀ c, ends c = true → isLineEnd c = true) →
        (ends '\r' = true → ∀ b ∈ chain, ¬ b.BreaksComment) →
          readQuery? ends (Cypher.linesText clauses) =
            some (clauses.flatMap Clause.scopeSteps) := by
  obtain ⟨a, ha, hreturned, rfl⟩ := chainQuery_eq_ok_iff.mp h
  have hreads := emitChain_reads ha
  exact ⟨hreads.tracks.scoped hreturned, fun ends hends hbreaks =>
    hreads.readQuery?_eq hreturned hends hbreaks⟩

/-- What the text of a query does with variables is right.  It is read off the text under the rule
that a line feed ends a comment.  It is the same if a carriage return ends it too, unless there is
one within a relationship type of an edge filter. -/
theorem compile_text_scoped {g : Graph} (h : (compile g).errors = []) :
    ∃ r steps, Chain.resolve g = .ok r ∧ Scoped steps ∧
      readQuery? (· = '\n') (compile g).text = some steps ∧
      ((∀ b ∈ r.chain, ¬ b.BreaksComment) →
        readQuery? isLineEnd (compile g).text = some steps) := by
  obtain ⟨r, clauses, hr, hclauses, htext⟩ := compile_errors_eq_nil_iff.mp h
  obtain ⟨hscoped, hread⟩ := chainQuery_scoped hclauses
  rw [htext]
  refine ⟨r, _, hr, hscoped, hread _ (by simp [isLineEnd]) (by simp), fun hbreaks => ?_⟩
  exact hread isLineEnd (fun _ => id) fun _ => hbreaks

/-- A path to a target that the filter after it forgets, and a walk on from the entity found
first. -/
def pathGraph : Graph where
  blocks := [⟨"start", "", some .start⟩, ⟨"pick", "", some (.selectById "e1")⟩,
    ⟨"path", "", some (.shortestPath ⟨"text", "", "goal", 4⟩)⟩,
    ⟨"keep", "", some (.ontologyFilter ["Person"])⟩,
    ⟨"near", "", some (.neighborhood ⟨"out", 2, ["WITH", "a\rb"], [], []⟩)⟩,
    ⟨"edges", "", some (.edgeFilter ["KNOWS\nWITH x"])⟩,
      ⟨"find", "", some (.textSearch ⟨"acme", 3⟩)⟩,
    ⟨"cap", "", some (.resultLimit 10)⟩]
  connections := [⟨"start", "pick"⟩, ⟨"pick", "path"⟩, ⟨"path", "keep"⟩, ⟨"keep", "near"⟩,
    ⟨"near", "edges"⟩, ⟨"edges", "find"⟩, ⟨"find", "cap"⟩]

/-- Neither a type that is a keyword nor a line feed in a comment is taken for a clause. -/
theorem pathGraph_scoped :
    (compile pathGraph).text = "\n".intercalate
        ["MATCH (n \x7bid: 'e1'\x7d)", "MATCH (t1) WHERE toLower(t1.label) CONTAINS 'goal'",
          "MATCH p1 = shortestPath((n)-[*..4]-(t1))", "WITH n, p1",
          "WHERE n.ontology_type = 'Person'", "MATCH p2 = (n)-[:WITH|\x60a\rb\x60*1..2]->(n2)",
          "// Edge filter [\x60KNOWS WITH x\x60] on n2 is not supported yet; " ++
            "relationships pass through unfiltered",
          "MATCH (n3)", "WHERE toLower(n3.label) CONTAINS 'acme'", "WITH n, p1, n2, p2, n3 LIMIT 3",
          "RETURN DISTINCT n, p1, p2", "LIMIT 10"] ∧
      ∃ steps, Scoped steps ∧ readQuery? isLineEnd (compile pathGraph).text = some steps ∧
        steps = [.pattern [] ["n"], .pattern [] ["t1"], .condition ["t1"],
          .pattern ["n", "t1"] ["p1"], .carry ["n", "p1"], .condition ["n"],
          .pattern ["n"] ["p2", "n2"], .pattern [] ["n3"], .condition ["n3"],
          .carry ["n", "p1", "n2", "p2", "n3"], .result ["n", "p1", "p2"]] := by
  have hok : (compile pathGraph).errors = [] := by decide +kernel
  have hchain : Chain.resolve pathGraph =
      .ok ⟨pathGraph.blocks.drop 1, [Chain.missingEndWarning]⟩ := by
    decide +kernel
  have hquery : chainQuery (pathGraph.blocks.drop 1) = .ok
      [.matchId "n" "e1", .matchWhere "t1" (.contains "t1.label" "goal"),
        .matchShortest "p1" "n" 4 "t1", .carry ["n", "p1"] none,
        .filter [[.equal "n.ontology_type" "Person"]],
        .matchPath "p2" "n" ["WITH", "a\rb"] 2 .outgoing "n2",
        .note (edgeFilterNote ["KNOWS\nWITH x"] "n2"), .matchNode "n3",
        .filter [[.contains "n3.label" "acme"]], .carry ["n", "p1", "n2", "p2", "n3"] (some 3),
        .returnDistinct ["n", "p1", "p2"], .limit 10] := by
    decide +kernel
  obtain ⟨r, steps, hr, hscoped, -, hread⟩ := compile_text_scoped hok
  cases hr.symm.trans hchain
  have hbreaks : ∀ b ∈ pathGraph.blocks.drop 1, ¬ b.BreaksComment := by decide +kernel
  have hsteps := hread hbreaks
  -- the same steps are those of the clauses, where they can be computed
  have hclauses := (chainQuery_scoped hquery).2 isLineEnd (fun _ => id) fun _ => hbreaks
  rw [← (compile_of_chainQuery hchain hquery).2, hsteps] at hclauses
  refine ⟨by decide +kernel, steps, hscoped, hsteps, (Option.some.inj hclauses).trans ?_⟩
  decide +kernel

/-- An edge filter with a clause behind a carriage return. -/
def splicedGraph : Graph where
  blocks := [⟨"start", "", some .start⟩, ⟨"pick", "", some (.selectById "e1")⟩,
    ⟨"edges", "", some (.edgeFilter ["A\rWITH zzz //"])⟩]
  connections := [⟨"start", "pick"⟩, ⟨"pick", "edges"⟩]

/-- The clause is read as part of the query, and its variable is not in scope. -/
theorem splicedGraph_not_scoped :
    (compile splicedGraph).errors = [] ∧
      ∃ steps, readQuery? isLineEnd (compile splicedGraph).text = some steps ∧
        steps = [.pattern [] ["n"], .carry ["zzz"], .result ["n"]] ∧ ¬ Scoped steps := by
  have hread : readQuery? isLineEnd (compile splicedGraph).text =
      some [.pattern [] ["n"], .carry ["zzz"], .result ["n"]] := by
    decide +kernel
  refine ⟨by decide +kernel, _, hread, rfl, fun hscoped => ?_⟩
  have hzzz :=
    hscoped.mentioned [.pattern [] ["n"]] (.carry ["zzz"]) [.result ["n"]] rfl "zzz" (by decide)
  revert hzzz
  decide

end CypherBlocks
