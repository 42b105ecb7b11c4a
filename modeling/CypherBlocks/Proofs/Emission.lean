import CypherBlocks.Compile
import CypherBlocks.Proofs.Texts

/-!
# What a block can contribute, and what a chain keeps

`Emits` lists every way in which a block can contribute to a query; nothing else in the theory opens
the emitters.  A property of all chains then follows from one case analysis on `Emits` and from
`emitChain_invariant`.
-/

namespace CypherBlocks

open Cypher (Clause Comparison Names)

/-! ## 1. One block -/

/-- What an edge filter says in the query about the types that it would keep. -/
def edgeFilterNote (types : List String) (binding : String) : String :=
  let listed := String.intercalate "|" ((Cypher.usable types).map Cypher.nameText)
  s!"Edge filter [{listed}] on {binding} is not supported yet; " ++
    "relationships pass through unfiltered"

/-- How a path block finds a target that has a name. -/
def targetCondition (p : ShortestPath) (target : String) : Except EmitError Comparison :=
  (targetTest p).map (· target)

/-- What parameters contribute, with the conditions under which they contribute anything: one rule
for each kind, and two for an entity selected by its id, whose name depends on its place in the
chain. -/
inductive Emits (input : EmitInput) (names : Names) : Params → Output → Names → Prop where
  | start : Emits input names .start (.unchanged input []) names
  | finish : Emits input names .finish (.unchanged input []) names
  | search {p : TextSearch} (query : Text.isBlank p.query = false) :
      Emits input names (.textSearch p)
        ⟨[.matchNode names.entity,
        .filter [[.contains (Cypher.property names.entity "label") p.query]],
        .carry (carried input.scope names.entity) (some (if p.limit < 1 then defaultSearchCap
        else p.limit))], some names.entity, none, none⟩ names.advance
  | selectFirst {id : String} (nonblank : Text.isBlank id = false) (first : input.first = true) :
      Emits input names (.selectById id) ⟨[.matchId Names.canonical id], some Names.canonical,
        none, none⟩ names
  | selectLater {id : String} (nonblank : Text.isBlank id = false) (later : input.first = false) :
      Emits input names (.selectById id) ⟨[.matchId names.entity id], some names.entity, none,
        none⟩ names.advance
  | neighborhood {p : Neighborhood} {source : String} {arrow : Cypher.Arrow}
      (bound : input.binding = some source) (least : fewestHops ≤ p.depth)
      (greatest : p.depth ≤ greatestDepth) (direction : arrowOf? p.direction = some arrow)
      (statuses : Cypher.usable p.relationshipTypes ≠ [] ∨ p.includeStatuses = [] ∧
        p.excludeStatuses = []) :
      Emits input names (.neighborhood p)
        ⟨[.matchPath names.path source p.relationshipTypes p.depth arrow names.entity],
        some names.entity, some names.path, none⟩ names.advance
  | shortestPath {p : ShortestPath} {source : String} {condition : Comparison}
      (bound : input.binding = some source)
      (target : targetCondition p names.target = .ok condition) (least : fewestHops ≤ p.maxHops)
      (greatest : p.maxHops ≤ greatestHops) :
      Emits input names (.shortestPath p)
        ⟨[.matchWhere names.target condition,
        .matchShortest names.path source p.maxHops names.target], some source, some names.path,
        none⟩ names.advance
  | ontologyFilter {types : List String} {binding : String} (bound : input.binding = some binding)
      (nonempty : Cypher.comparisons (Cypher.property binding "ontology_type") types ≠ []) :
      Emits input names (.ontologyFilter types)
        (filtered input binding
        [Cypher.comparisons (Cypher.property binding "ontology_type") types]) names
  | nodeFilter {p : NodeFilter} {binding : String} (bound : input.binding = some binding)
      (finite : p.minConfidence.isFinite = true)
      (nonempty : labelConditions binding p.labels ++ confidenceConditions binding
        p.minConfidence ≠ []) :
      Emits input names (.nodeFilter p)
        (filtered input binding (labelConditions binding p.labels ++ confidenceConditions binding
        p.minConfidence)) names
  | edgeFilter {types : List String} {binding : String} (bound : input.binding = some binding)
      (nonempty : Cypher.usable types ≠ []) :
      Emits input names (.edgeFilter types)
        (.unchanged input [.note (edgeFilterNote types binding)]) names
  | andGate : Emits input names .andGate (emitGate .andGate "intersection" input) names
  | orGate : Emits input names .orGate (emitGate .orGate "union" input) names
  | notGate : Emits input names .notGate (emitGate .notGate "negation" input) names
  | resultLimit {count : Int} (least : 1 ≤ count) :
      Emits input names (.resultLimit count) ⟨[], input.binding, none, some count⟩ names

variable {input : EmitInput} {names names' : Names} {p : Params} {o : Output}

/-- What an emitter does from a given counter on. -/
def Emitter.runFrom {α : Type} (x : Emitter α) (names : Names) : Except EmitError α × Names :=
  x.run.run names

namespace Emitter

variable {α : Type} {x : Emitter α} {a : α}

@[simp] theorem runFrom_throw (e : EmitError) (names : Names) :
    (throw e : Emitter α).runFrom names = (.error e, names) := rfl

@[simp] theorem runFrom_pure (a : α) (names : Names) :
    (pure a : Emitter α).runFrom names = (.ok a, names) := rfl

/-- A number that is taken is counted, whatever comes after. -/
@[simp] theorem runFrom_takeNumber_bind (f : Names → Emitter α) (names : Names) :
    (takeNumber >>= f).runFrom names = (f names).runFrom names.advance := rfl

@[simp] theorem runFrom_ofExcept (r : Except EmitError α) (names : Names) :
    (MonadExcept.ofExcept r : Emitter α).runFrom names = (r, names) := by
  cases r <;> rfl

end Emitter

theorem targetCondition_of_targetTest {p : ShortestPath} {test : String → Comparison}
    (h : targetTest p = .ok test) (target : String) :
    targetCondition p target = .ok (test target) := by
  rw [targetCondition, h]
  rfl

theorem exists_targetTest {p : ShortestPath} {target : String} {c : Comparison}
    (h : targetCondition p target = .ok c) : ∃ test, targetTest p = .ok test ∧ test target = c := by
  unfold targetCondition at h
  cases htest : targetTest p with
  | error e =>
    rw [htest] at h
    cases h
  | ok test =>
    rw [htest] at h
    cases h
    exact ⟨test, rfl, rfl⟩

/-- How an emitter for given parameters can end: with what a rule lets them contribute, or with an
error.  Parameters are found wanting before a number is taken, and they may be wrong in many ways,
but they are there. -/
def Answers (input : EmitInput) (names : Names) (p : Params) :
    Except EmitError Output × Names → Prop
  | (.ok o, names') => Emits input names p o names'
  | (.error e, names') => names' = names ∧ e ≠ .noParameters

theorem Answers.error {e : EmitError} (he : e ≠ .noParameters) :
    Answers input names p (.error e, names) := ⟨rfl, he⟩

theorem targetTest_ne_noParameters {p : ShortestPath} {e : EmitError}
    (h : targetTest p = .error e) : e ≠ .noParameters := by
  unfold targetTest at h
  split at h
  · split at h <;> cases h
    decide
  · split at h <;> cases h
    decide
  · split at h <;> cases h
    decide
  · cases h
    exact EmitError.noConfusion

-- one lemma for each emitter: the checks that it makes become the premises of its rule

theorem emitTextSearch_answers (p : TextSearch) :
    Answers input names (.textSearch p) ((emitTextSearch p input).runFrom names) := by
  unfold emitTextSearch
  split
  · exact .error (by decide)
  · rename_i hquery
    exact Emits.search (Bool.of_not_eq_true hquery)

theorem emitSelectById_answers (id : String) :
    Answers input names (.selectById id) ((emitSelectById id input).runFrom names) := by
  unfold emitSelectById
  split
  · exact .error (by decide)
  · rename_i hid
    split
    · rename_i hfirst
      exact Emits.selectFirst (Bool.of_not_eq_true hid) hfirst
    · rename_i hlater
      exact Emits.selectLater (Bool.of_not_eq_true hid) (Bool.of_not_eq_true hlater)

theorem emitNeighborhood_answers (p : Neighborhood) :
    Answers input names (.neighborhood p) ((emitNeighborhood p input).runFrom names) := by
  unfold emitNeighborhood
  split
  · exact .error (by decide)
  · rename_i source hbound
    split
    · exact .error EmitError.noConfusion
    · rename_i hdepth
      simp only [Bool.or_eq_true, decide_eq_true_eq, not_or, Int.not_lt] at hdepth
      split
      · exact .error EmitError.noConfusion
      · rename_i arrow harrow
        dsimp only
        split
        · exact .error (by decide)
        · rename_i hstatus
          refine Emits.neighborhood hbound hdepth.1 hdepth.2 harrow ?_
          simpa [Classical.or_iff_not_imp_left] using hstatus

theorem emitShortestPath_answers (p : ShortestPath) :
    Answers input names (.shortestPath p) ((emitShortestPath p input).runFrom names) := by
  unfold emitShortestPath
  split
  · exact .error (by decide)
  · rename_i source hbound
    split
    · rename_i e htest
      exact .error (targetTest_ne_noParameters htest)
    · rename_i test htest
      split
      · exact .error EmitError.noConfusion
      · rename_i hhops
        simp only [Bool.or_eq_true, decide_eq_true_eq, not_or, Int.not_lt] at hhops
        exact Emits.shortestPath hbound (targetCondition_of_targetTest htest _) hhops.1 hhops.2

theorem emitOntologyFilter_answers (types : List String) :
    Answers input names (.ontologyFilter types) (emitOntologyFilter types input, names) := by
  unfold emitOntologyFilter
  split
  · exact .error (by decide)
  · rename_i binding hbound
    split
    · exact .error (by decide)
    · rename_i hne
      exact Emits.ontologyFilter hbound hne

theorem emitNodeFilter_answers (p : NodeFilter) :
    Answers input names (.nodeFilter p) (emitNodeFilter p input, names) := by
  unfold emitNodeFilter
  split
  · exact .error (by decide)
  · rename_i binding hbound
    split
    · exact .error (by decide)
    · rename_i hfinite
      split
      · exact .error (by decide)
      · rename_i hne
        exact Emits.nodeFilter hbound (by simpa using hfinite) hne

theorem emitEdgeFilter_answers (types : List String) :
    Answers input names (.edgeFilter types) (emitEdgeFilter types input, names) := by
  unfold emitEdgeFilter
  split
  · exact .error (by decide)
  · rename_i binding hbound
    split
    · exact .error (by decide)
    · rename_i hne
      exact Emits.edgeFilter hbound hne

theorem emitResultLimit_answers (count : Int) :
    Answers input names (.resultLimit count) (emitResultLimit count input, names) := by
  unfold emitResultLimit
  split
  · exact .error EmitError.noConfusion
  · rename_i hcount
    exact Emits.resultLimit (Int.not_lt.mp hcount)

theorem emitParams_answers (p : Params) :
    Answers input names p ((emitParams p input).runFrom names) := by
  cases p with
  | start => exact Emits.start
  | finish => exact Emits.finish
  | textSearch p => exact emitTextSearch_answers p
  | selectById id => exact emitSelectById_answers id
  | neighborhood p => exact emitNeighborhood_answers p
  | shortestPath p => exact emitShortestPath_answers p
  | ontologyFilter types =>
    rw [emitParams, Emitter.runFrom_ofExcept]
    exact emitOntologyFilter_answers types
  | nodeFilter p =>
    rw [emitParams, Emitter.runFrom_ofExcept]
    exact emitNodeFilter_answers p
  | edgeFilter types =>
    rw [emitParams, Emitter.runFrom_ofExcept]
    exact emitEdgeFilter_answers types
  | andGate => exact Emits.andGate
  | orGate => exact Emits.orGate
  | notGate => exact Emits.notGate
  | resultLimit count =>
    rw [emitParams, Emitter.runFrom_ofExcept]
    exact emitResultLimit_answers count

theorem emits_of_emitParams (h : (emitParams p input).runFrom names = (.ok o, names')) :
    Emits input names p o names' := by
  have hanswers : Answers input names p ((emitParams p input).runFrom names) := emitParams_answers p
  rwa [h] at hanswers

theorem emitParams_eq_error {e : EmitError}
    (h : (emitParams p input).runFrom names = (.error e, names')) :
    names' = names ∧ e ≠ .noParameters := by
  have hanswers : Answers input names p ((emitParams p input).runFrom names) := emitParams_answers p
  rwa [h] at hanswers

theorem Emits.runFrom_emitParams (h : Emits input names p o names') :
    (emitParams p input).runFrom names = (.ok o, names') := by
  -- the premises of a rule are the checks of its emitter, so that each of them passes
  cases h with
  | start => rfl
  | finish => rfl
  | search hq =>
    change (emitTextSearch _ input).runFrom names = _
    rw [emitTextSearch, if_neg (by simp [hq])]
    rfl
  | selectFirst hid hfirst =>
    change (emitSelectById _ input).runFrom names = _
    rw [emitSelectById, if_neg (by simp [hid]), if_pos hfirst]
    rfl
  | selectLater hid hlater =>
    change (emitSelectById _ input).runFrom names = _
    rw [emitSelectById, if_neg (by simp [hid]), if_neg (by simp [hlater])]
    rfl
  | @neighborhood p source arrow hbound hleast hgreatest harrow hstatus =>
    change (emitNeighborhood p input).runFrom names = _
    have hdepth : ¬ (decide (p.depth < fewestHops) || decide (greatestDepth < p.depth)) = true := by
      simp only [Bool.or_eq_true, decide_eq_true_eq]
      omega
    rw [emitNeighborhood, hbound]
    simp only [if_neg hdepth, harrow]
    rw [if_neg]
    · rfl
    · rcases hstatus with hne | ⟨hin, hex⟩
      · simp [hne]
      · simp [hin, hex]
  | @shortestPath p source condition hbound htarget hleast hgreatest =>
    change (emitShortestPath p input).runFrom names = _
    have hhops : ¬ (decide (p.maxHops < fewestHops) || decide (greatestHops < p.maxHops)) =
        true := by
      simp only [Bool.or_eq_true, decide_eq_true_eq]
      omega
    obtain ⟨test, htest, rfl⟩ := exists_targetTest htarget
    rw [emitShortestPath, hbound]
    simp only [htest, if_neg hhops]
    rfl
  | @ontologyFilter types binding hbound hne =>
    change (MonadExcept.ofExcept (emitOntologyFilter types input) : Emitter Output).runFrom names =
      _
    rw [Emitter.runFrom_ofExcept, emitOntologyFilter, hbound]
    simp only
  | @nodeFilter p binding hbound hfinite hne =>
    change (MonadExcept.ofExcept (emitNodeFilter p input) : Emitter Output).runFrom names = _
    rw [Emitter.runFrom_ofExcept, emitNodeFilter, hbound]
    simp only [hfinite, Bool.not_true, Bool.false_eq_true, if_false]
  | @edgeFilter types binding hbound hne =>
    change (MonadExcept.ofExcept (emitEdgeFilter types input) : Emitter Output).runFrom names = _
    rw [Emitter.runFrom_ofExcept, emitEdgeFilter, hbound]
    simp only
    rfl
  | andGate => rfl
  | orGate => rfl
  | notGate => rfl
  | @resultLimit count hcount =>
    change (MonadExcept.ofExcept (emitResultLimit count input) : Emitter Output).runFrom names = _
    rw [Emitter.runFrom_ofExcept, emitResultLimit, if_neg (Int.not_lt.mpr hcount)]

theorem runFrom_emitBlock_eq_ok_iff {b : Block} :
    (emitBlock b input).runFrom names = (.ok o, names') ↔
      ∃ p, b.params = some p ∧ Emits input names p o names' := by
  unfold emitBlock
  cases b.params with
  | none =>
    refine ⟨fun h => ?_, fun ⟨p, hp, _⟩ => ?_⟩
    · cases h
    · cases hp
  | some p =>
    simp only [Option.some.injEq, exists_eq_left']
    exact ⟨emits_of_emitParams, Emits.runFrom_emitParams⟩

/-- A block that fails has taken no number, and it lacks parameters just if the error says so. -/
theorem runFrom_emitBlock_eq_error {b : Block} {e : EmitError}
    (h : (emitBlock b input).runFrom names = (.error e, names')) :
    names' = names ∧ (e = .noParameters ↔ b.params = none) := by
  unfold emitBlock at h
  cases hp : b.params with
  | none =>
    rw [hp] at h
    cases h
    exact ⟨rfl, by simp⟩
  | some p =>
    rw [hp] at h
    obtain ⟨hnames, he⟩ := emitParams_eq_error h
    exact ⟨hnames, by simp [he]⟩

/-- What a block gives with the counter after it, in terms of what its emitter does. -/
theorem emitCounted_eq (b : Block) (input : EmitInput) (names : Names) :
    emitCounted b input names =
      (((emitBlock b input).runFrom names).1.mapError (·.diagnosis b.displayLabel),
      ((emitBlock b input).runFrom names).2) :=
  rfl

theorem emit_eq (b : Block) (input : EmitInput) (names : Names) :
    emit b input names =
      (((emitBlock b input).runFrom names).1.mapError (·.diagnosis b.displayLabel)).map
      (·, ((emitBlock b input).runFrom names).2) :=
  rfl

/-- A block contributes exactly what its parameters do; without parameters it contributes
nothing. -/
theorem emit_eq_ok_iff {b : Block} :
    emit b input names = .ok (o, names') ↔
      ∃ p, b.params = some p ∧ Emits input names p o names' := by
  rw [← runFrom_emitBlock_eq_ok_iff, emit_eq]
  rcases (emitBlock b input).runFrom names with ⟨e | o', n⟩
  · refine ⟨fun h => ?_, fun h => ?_⟩ <;> cases h
  · refine ⟨fun h => ?_, fun h => ?_⟩ <;> cases h <;> rfl

/-! ## 2. What conditions compare -/

/-- A target is found by its id or by a text in its label. -/
theorem targetCondition_eq_ok_iff {p : ShortestPath} {target : String} {c : Comparison} :
    targetCondition p target = .ok c ↔
      p.mode ∈ ["id", ""] ∧ Text.isBlank p.targetId = false ∧
        .equal (Cypher.property target "id") p.targetId = c ∨
        p.mode = "text" ∧ Text.isBlank p.targetQuery = false ∧
          .contains (Cypher.property target "label") p.targetQuery = c := by
  unfold targetCondition targetTest
  split
  · rename_i hmode
    cases Text.isBlank p.targetId <;> simp [Except.map, hmode]
  · rename_i hmode
    cases Text.isBlank p.targetId <;> simp [Except.map, hmode]
  · rename_i hmode
    cases Text.isBlank p.targetQuery <;> simp [Except.map, hmode]
  · simp_all [Except.map]

theorem property_of_targetCondition {p : ShortestPath} {target : String} {c : Comparison}
    (h : targetCondition p target = .ok c) :
    c.property = Cypher.property target "id" ∨ c.property = Cypher.property target "label" := by
  rcases targetCondition_eq_ok_iff.mp h with ⟨-, -, rfl⟩ | ⟨-, -, rfl⟩
  · exact .inl rfl
  · exact .inr rfl

/-- All conditions that a node filter makes are about one entity. -/
theorem property_of_mem_nodeConditions {binding : String} {p : NodeFilter} {cs : List Comparison}
    {c : Comparison}
    (hcs : cs ∈ labelConditions binding p.labels ++ confidenceConditions binding p.minConfidence)
    (hc : c ∈ cs) :
    c.property = Cypher.property binding "label" ∨
      c.property = Cypher.property binding "confidence" := by
  rcases List.mem_append.mp hcs with hcs | hcs
  · unfold labelConditions at hcs
    split at hcs
    · cases hcs
    · rw [List.mem_singleton.mp hcs] at hc
      exact .inl (Cypher.property_of_mem_comparisons hc)
  · unfold confidenceConditions at hcs
    split at hcs
    · rw [List.mem_singleton.mp hcs, List.mem_singleton] at hc
      exact .inr (by rw [hc]; rfl)
    · cases hcs

/-! ## 3. A chain -/

variable {a a' : Assembly} {chain : List Block} {first : Bool}

theorem emitFrom_nil_outcome : (emitFrom first a []).outcome = .ok a := rfl

/-- A chain is emitted if its first block is, and then the rest from what the first block leaves. -/
theorem emitFrom_cons_eq_ok_iff {b : Block} :
    (emitFrom first a (b :: chain)).outcome = .ok a' ↔
      ∃ p o names', b.params = some p ∧ Emits ⟨a.binding, first, a.scope⟩ a.names p o names' ∧
        (emitFrom false (a.add first o names') chain).outcome = .ok a' := by
  rw [emitFrom]
  cases he : emit b ⟨a.binding, first, a.scope⟩ a.names with
  | error d =>
    refine ⟨fun h => ?_, fun ⟨p, o, names', hp, hemits, _⟩ => ?_⟩
    · cases h
    · rw [emit_eq_ok_iff.mpr ⟨p, hp, hemits⟩] at he
      cases he
  | ok x =>
    obtain ⟨o, names'⟩ := x
    obtain ⟨p, hp, hemits⟩ := emit_eq_ok_iff.mp he
    refine ⟨fun h => ⟨p, o, names', hp, hemits, h⟩, fun ⟨p', o', names'', hp', hemits', h⟩ => ?_⟩
    rw [emit_eq_ok_iff.mpr ⟨p', hp', hemits'⟩] at he
    cases he
    exact h

/-- What holds before the first block and is kept by every block holds of the whole chain. The
invariant sees the blocks emitted so far; a block is the first one if there are none. -/
theorem emitFrom_invariant (Inv : List Block → Assembly → Prop)
    (step :
      ∀ {done : List Block} {a : Assembly} {b : Block} {p : Params} {o : Output} {names' : Names},
      Inv done a → b.params = some p → Emits ⟨a.binding, done.isEmpty, a.scope⟩ a.names p o names' →
      Inv (done ++ [b]) (a.add done.isEmpty o names')) {done : List Block} (hinv : Inv done a)
    (h : (emitFrom done.isEmpty a chain).outcome = .ok a') : Inv (done ++ chain) a' := by
  induction chain generalizing done a with
  | nil =>
    rw [emitFrom_nil_outcome] at h
    cases h
    rwa [List.append_nil]
  | cons b rest ih =>
    obtain ⟨p, o, names', hp, hemits, hrest⟩ := emitFrom_cons_eq_ok_iff.mp h
    have hnext : (done ++ [b]).isEmpty = false := by simp
    rw [← hnext] at hrest
    rw [show done ++ b :: rest = done ++ [b] ++ rest by simp]
    exact ih (step hinv hp hemits) hrest

theorem emitChain_invariant (Inv : List Block → Assembly → Prop) (start : Inv [] Assembly.empty)
    (step :
      ∀ {done : List Block} {a : Assembly} {b : Block} {p : Params} {o : Output} {names' : Names},
      Inv done a → b.params = some p → Emits ⟨a.binding, done.isEmpty, a.scope⟩ a.names p o names' →
      Inv (done ++ [b]) (a.add done.isEmpty o names')) (h : (emitChain chain).outcome = .ok a) :
    Inv chain a :=
  emitFrom_invariant Inv step start h

/-- A list with one more variable has no others. -/
theorem mem_addNew {vs : List String} {v : Option String} {w : String} :
    w ∈ addNew vs v ↔ w ∈ vs ∨ v = some w := by
  unfold addNew
  split
  · rename_i v
    split
    · rename_i hv
      rw [Option.some.injEq]
      exact ⟨.inl, fun h => h.elim id fun heq => heq ▸ hv⟩
    · simp [eq_comm]
  · simp

theorem mem_carried {scope : List String} {v w : String} :
    w ∈ carried scope v ↔ w ∈ scope ∨ w = v := by
  have hcarried : carried scope v = addNew scope (some v) := rfl
  rw [hcarried, mem_addNew, Option.some.injEq, eq_comm (a := v)]

/-! ## 4. A query -/

/-- The clause that caps the rows of the whole query. -/
def Assembly.capClauses (a : Assembly) : List Clause :=
  match a.cap with
  | some n => [.limit n]
  | none => []

theorem Assembly.finish_eq_ok_iff {clauses : List Clause} :
    a.finish = .ok clauses ↔
      a.returned ≠ [] ∧ clauses = a.clauses ++ .returnDistinct a.returned :: a.capClauses := by
  unfold Assembly.finish
  split
  · rename_i hnone
    simp [hnone]
  · rename_i hsome
    refine ⟨fun h => ?_, fun ⟨_, h⟩ => ?_⟩
    · cases h
      exact ⟨hsome, rfl⟩
    · rw [h]
      rfl

theorem chainQuery_eq_ok_iff {clauses : List Clause} :
    chainQuery chain = .ok clauses ↔
      ∃ a, (emitChain chain).outcome = .ok a ∧ a.returned ≠ [] ∧
        clauses = a.clauses ++ .returnDistinct a.returned :: a.capClauses := by
  unfold chainQuery
  cases he : (emitChain chain).outcome with
  | error d =>
    refine ⟨fun h => ?_, fun ⟨a, h, _⟩ => ?_⟩
    · cases h
    · cases h
  | ok a =>
    change a.finish = .ok clauses ↔ _
    rw [Assembly.finish_eq_ok_iff]
    simp

theorem compile_of_chainQuery {g : Graph} {r : Chain.Resolved} {clauses : List Clause}
    (hr : Chain.resolve g = .ok r) (hq : chainQuery r.chain = .ok clauses) :
    (compile g).errors = [] ∧ (compile g).text = Cypher.linesText clauses := by
  simp [compile, query, hr, hq]

/-- A graph compiles without error if it has a chain and the chain has a query, and then the text is
that query's. -/
theorem compile_errors_eq_nil_iff {g : Graph} :
    (compile g).errors = [] ↔
      ∃ r clauses, Chain.resolve g = .ok r ∧ chainQuery r.chain = .ok clauses ∧
        (compile g).text = Cypher.linesText clauses := by
  unfold compile query
  cases hr : Chain.resolve g with
  | error e => simp
  | ok r =>
    cases hq : chainQuery r.chain with
    | error d => simp [hq]
    | ok clauses => simp [hq]

end CypherBlocks
