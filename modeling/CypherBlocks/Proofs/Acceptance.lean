import CypherBlocks.Proofs.Texts
import CypherBlocks.Proofs.Emission

/-!
# Which graphs compile

A graph compiles exactly if it has a chain, every block of the chain is valid on its own, and the
blocks that start from an entity come after one that matches entities, of which there is at least
one.  Validity is said here block by block, without the emitters.
-/

namespace CypherBlocks

open Cypher (Names)

/-! ## 1. Blocks on their own -/

namespace Params

/-- Whether a block finds entities without being given any. -/
def matchesEntities : Params → Bool
  | .textSearch _ | .selectById _ => true
  | _ => false

/-- Whether a block starts from an entity found before it. -/
def needsEntity : Params → Bool
  | .neighborhood _ | .shortestPath _ | .ontologyFilter _ | .nodeFilter _ | .edgeFilter _ => true
  | _ => false

/-- Some entry of a list of terms is not blank. -/
def HasTerm (terms : List String) : Prop := ∃ s ∈ terms, Text.isBlank s = false

/-- Parameters that are complete and within their ranges. -/
def IsValid : Params → Prop
  | .textSearch p => Text.isBlank p.query = false
  | .selectById id => Text.isBlank id = false
  | .neighborhood p =>
    (1 ≤ p.depth ∧ p.depth ≤ 5) ∧ p.direction ∈ ["out", "in", "both", ""] ∧
      (HasTerm p.relationshipTypes ∨ p.includeStatuses = [] ∧ p.excludeStatuses = [])
  | .shortestPath p =>
    (p.mode ∈ ["id", ""] ∧ Text.isBlank p.targetId = false ∨ p.mode = "text" ∧
      Text.isBlank p.targetQuery = false) ∧ 1 ≤ p.maxHops ∧ p.maxHops ≤ 15
  | .ontologyFilter types => HasTerm types
  | .nodeFilter p =>
    p.minConfidence.isFinite = true ∧ (HasTerm p.labels ∨ p.minConfidence.isPositive = true)
  | .edgeFilter types => HasTerm types
  | .resultLimit count => 1 ≤ count
  | .start | .finish | .andGate | .orGate | .notGate => True

end Params

namespace Block

def matchesEntities (b : Block) : Bool := b.params.any (·.matchesEntities)

def needsEntity (b : Block) : Bool := b.params.any (·.needsEntity)

/-- A block that has parameters, and valid ones. -/
def IsValid (b : Block) : Prop := ∃ p, b.params = some p ∧ p.IsValid

end Block

/-- What a chain needs to become a query. -/
structure Compilable (chain : List Block) : Prop where
  matched : ∃ b ∈ chain, b.matchesEntities = true
  /-- No block before the first that matches entities starts from one. -/
  ordered : ∀ b ∈ chain.takeWhile (!·.matchesEntities), b.needsEntity = false
  valid : ∀ b ∈ chain, b.IsValid

/-! ## 2. When a block contributes -/

variable {input : EmitInput} {names names' : Names} {p : Params} {o : Output}

theorem arrowOf?_eq_some_iff {direction : String} :
    (∃ arrow, arrowOf? direction = some arrow) ↔ direction ∈ ["out", "in", "both", ""] := by
  unfold arrowOf?
  split <;> simp_all

theorem exists_targetCondition_iff {p : ShortestPath} (target : String) :
    (∃ condition, targetCondition p target = .ok condition) ↔
      p.mode ∈ ["id", ""] ∧ Text.isBlank p.targetId = false ∨ p.mode = "text" ∧
        Text.isBlank p.targetQuery = false := by
  simp [targetCondition_eq_ok_iff, exists_or]

theorem labelConditions_ne_nil_iff (binding : String) {labels : List String} :
    labelConditions binding labels ≠ [] ↔ Params.HasTerm labels := by
  rw [Params.HasTerm, ← Cypher.comparisons_ne_nil_iff (Cypher.property binding "label")]
  unfold labelConditions
  split
  · simp_all
  · simp_all

theorem confidenceConditions_ne_nil_iff (binding : String) {least : Double} :
    confidenceConditions binding least ≠ [] ↔ least.isPositive = true := by
  unfold confidenceConditions
  split <;> simp_all

/-- Only valid parameters contribute, and those that start from an entity only if there is one. -/
theorem Emits.valid (h : Emits input names p o names') :
    p.IsValid ∧ (p.needsEntity = true → input.binding.isSome = true) := by
  cases h with
  | start => simp [Params.IsValid, Params.needsEntity]
  | finish => simp [Params.IsValid, Params.needsEntity]
  | search hquery => exact ⟨hquery, by simp [Params.needsEntity]⟩
  | selectFirst hid _ => exact ⟨hid, by simp [Params.needsEntity]⟩
  | selectLater hid _ => exact ⟨hid, by simp [Params.needsEntity]⟩
  | neighborhood hbound hleast hgreatest harrow hstatus =>
    have hdirection := arrowOf?_eq_some_iff.mp ⟨_, harrow⟩
    rw [Cypher.usable_ne_nil_iff] at hstatus
    exact ⟨⟨⟨hleast, hgreatest⟩, hdirection, hstatus⟩, by simp [hbound]⟩
  | shortestPath hbound htarget hleast hgreatest =>
    exact ⟨⟨(exists_targetCondition_iff _).mp ⟨_, htarget⟩, hleast, hgreatest⟩, by simp [hbound]⟩
  | ontologyFilter hbound hne => exact ⟨(Cypher.comparisons_ne_nil_iff _).mp hne, by simp [hbound]⟩
  | @nodeFilter p binding hbound hfinite hne =>
    refine ⟨⟨hfinite, ?_⟩, by simp [hbound]⟩
    rw [← labelConditions_ne_nil_iff binding, ← confidenceConditions_ne_nil_iff binding]
    by_contra hnone
    rw [not_or, not_not, not_not] at hnone
    exact hne (by rw [hnone.1, hnone.2]; rfl)
  | edgeFilter hbound hne => exact ⟨Cypher.usable_ne_nil_iff.mp hne, by simp [hbound]⟩
  | andGate => simp [Params.IsValid, Params.needsEntity]
  | orGate => simp [Params.IsValid, Params.needsEntity]
  | notGate => simp [Params.IsValid, Params.needsEntity]
  | resultLimit hcount => exact ⟨hcount, by simp [Params.needsEntity]⟩

/-- Valid parameters contribute if there is an entity to start from or they need none. -/
theorem emits_of_valid (input : EmitInput) (names : Names) (hvalid : p.IsValid)
    (hneeds : p.needsEntity = true → input.binding.isSome = true) :
    ∃ o names', Emits input names p o names' := by
  have hsource : p.needsEntity = true → ∃ source, input.binding = some source :=
    fun h => Option.isSome_iff_exists.mp (hneeds h)
  -- the checks of each kind, in the order in which they are made
  cases p with
  | start => exact ⟨_, _, .start⟩
  | finish => exact ⟨_, _, .finish⟩
  | textSearch p => exact ⟨_, _, .search hvalid⟩
  | selectById id =>
    cases hfirst : input.first with
    | true => exact ⟨_, _, .selectFirst hvalid hfirst⟩
    | false => exact ⟨_, _, .selectLater hvalid hfirst⟩
  | neighborhood p =>
    obtain ⟨source, hbound⟩ := hsource rfl
    obtain ⟨⟨hleast, hgreatest⟩, hdirection, hstatus⟩ := hvalid
    obtain ⟨arrow, harrow⟩ := arrowOf?_eq_some_iff.mpr hdirection
    rw [Params.HasTerm, ← Cypher.usable_ne_nil_iff] at hstatus
    exact ⟨_, _, .neighborhood hbound hleast hgreatest harrow hstatus⟩
  | shortestPath p =>
    obtain ⟨source, hbound⟩ := hsource rfl
    obtain ⟨htarget, hleast, hgreatest⟩ := hvalid
    obtain ⟨condition, hcondition⟩ := (exists_targetCondition_iff names.target).mpr htarget
    exact ⟨_, _, .shortestPath hbound hcondition hleast hgreatest⟩
  | ontologyFilter types =>
    obtain ⟨binding, hbound⟩ := hsource rfl
    exact ⟨_, _, .ontologyFilter hbound ((Cypher.comparisons_ne_nil_iff _).mpr hvalid)⟩
  | nodeFilter p =>
    obtain ⟨binding, hbound⟩ := hsource rfl
    obtain ⟨hfinite, hterm⟩ := hvalid
    rw [← labelConditions_ne_nil_iff binding, ← confidenceConditions_ne_nil_iff binding] at hterm
    refine ⟨_, _, .nodeFilter hbound hfinite ?_⟩
    rw [ne_eq, List.append_eq_nil_iff, not_and_or]
    exact hterm
  | edgeFilter types =>
    obtain ⟨binding, hbound⟩ := hsource rfl
    exact ⟨_, _, .edgeFilter hbound (Cypher.usable_ne_nil_iff.mpr hvalid)⟩
  | andGate => exact ⟨_, _, .andGate⟩
  | orGate => exact ⟨_, _, .orGate⟩
  | notGate => exact ⟨_, _, .notGate⟩
  | resultLimit count => exact ⟨_, _, .resultLimit hvalid⟩

/-- After a block there is a current variable if there was one or the block matches entities. -/
theorem Emits.isSome_binding (h : Emits input names p o names') :
    o.binding.isSome = (input.binding.isSome || p.matchesEntities) := by
  cases h with
  | start | finish | andGate | orGate | notGate | resultLimit _ => exact (Bool.or_false _).symm
  | search _ | selectFirst _ _ | selectLater _ _ => simp [Params.matchesEntities]
  | neighborhood hbound _ _ _ _ => simp [hbound]
  | shortestPath hbound _ _ _ => simp [hbound]
  | ontologyFilter _ _ | nodeFilter _ _ _ | edgeFilter _ _ => exact (Bool.or_false _).symm

/-- A path leads from an entity, so a block that gives one leaves a current variable. -/
theorem Emits.isSome_binding_of_path (h : Emits input names p o names')
    (hpath : o.path.isSome = true) : o.binding.isSome = true := by
  cases h with
  | neighborhood _ _ _ _ _ | shortestPath _ _ _ _ => rfl
  | _ => cases hpath

/-! ## 3. When a chain is emitted -/

variable {a : Assembly} {chain : List Block}

/-- From a point with a current variable every valid chain is emitted; before that, blocks that need
one must wait for a block that matches entities. -/
theorem emitFrom_eq_ok_iff (first : Bool) (a : Assembly) :
    (∃ a', (emitFrom first a chain).outcome = .ok a') ↔
      (∀ b ∈ chain, b.IsValid) ∧
        (a.binding.isSome = false → ∀ b ∈ chain.takeWhile (!·.matchesEntities),
          b.needsEntity = false) := by
  -- by induction on the chain: after its first block a current variable is there, or the rest has
  -- to wait as well
  induction chain generalizing first a with
  | nil => simp [emitFrom]
  | cons b rest ih =>
    constructor
    · rintro ⟨a', h⟩
      obtain ⟨p, o, names', hp, hemits, hrest⟩ := emitFrom_cons_eq_ok_iff.mp h
      obtain ⟨hvalid, hneeds⟩ := hemits.valid
      obtain ⟨hvalidRest, horderRest⟩ := (ih _ _).mp ⟨a', hrest⟩
      refine ⟨List.forall_mem_cons.mpr ⟨⟨p, hp, hvalid⟩, hvalidRest⟩, fun hnone => ?_⟩
      -- after a block that matches entities none has to wait
      cases hmatch : p.matchesEntities with
      | true => simp [Block.matchesEntities, hp, hmatch]
      | false =>
        have hb : b.needsEntity = false := by
          by_contra hb
          have hsome := hneeds (by simpa [Block.needsEntity, hp] using hb)
          rw [hnone] at hsome
          cases hsome
        have hbinding : (a.add first o names').binding.isSome = false := by
          change o.binding.isSome = false
          rw [hemits.isSome_binding, hnone, hmatch]
          rfl
        simpa [List.takeWhile_cons, Block.matchesEntities, hp, hmatch, hb] using horderRest hbinding
    · rintro ⟨hvalid, horder⟩
      obtain ⟨⟨p, hp, hpvalid⟩, hvalidRest⟩ := List.forall_mem_cons.mp hvalid
      have hneeds : p.needsEntity = true → a.binding.isSome = true := by
        intro hneeds
        by_contra hnone
        have hmatch : p.matchesEntities = false := by
          cases p <;> first | rfl | cases hneeds
        have hb :=
          horder (Bool.of_not_eq_true hnone) b (by simp [Block.matchesEntities, hp, hmatch])
        simp [Block.needsEntity, hp, hneeds] at hb
      obtain ⟨o, names', hemits⟩ :=
        emits_of_valid ⟨a.binding, first, a.scope⟩ a.names hpvalid hneeds
      have horderRest : (a.add first o names').binding.isSome = false →
          ∀ b ∈ rest.takeWhile (!·.matchesEntities), b.needsEntity = false := by
        intro hbinding
        change o.binding.isSome = false at hbinding
        rw [hemits.isSome_binding, Bool.or_eq_false_iff] at hbinding
        have h := horder hbinding.1
        rw [List.takeWhile_cons_of_pos (by simp [Block.matchesEntities, hp, hbinding.2])] at h
        exact fun c hc => h c (List.mem_cons_of_mem _ hc)
      obtain ⟨a', hrest⟩ := (ih _ _).mpr ⟨hvalidRest, horderRest⟩
      exact ⟨a', emitFrom_cons_eq_ok_iff.mpr ⟨p, o, names', hp, hemits, hrest⟩⟩

/-- There is a current variable after a chain exactly if one of its blocks matches entities, and
variables to show only then. -/
theorem emitChain_isSome_binding (h : (emitChain chain).outcome = .ok a) :
    a.binding.isSome = chain.any (·.matchesEntities) ∧
      (a.shown ≠ [] → a.binding.isSome = true) := by
  refine emitChain_invariant (fun done a =>
    a.binding.isSome = done.any (·.matchesEntities) ∧ (a.shown ≠ [] → a.binding.isSome = true)) ?_
      ?_ h
  · exact ⟨rfl, fun h => absurd rfl h⟩
  · intro done a b p o names' hinv hp hemits
    obtain ⟨hbinding, hshown⟩ := hinv
    have hadded : (a.add done.isEmpty o names').binding.isSome =
        (a.binding.isSome || p.matchesEntities) :=
      hemits.isSome_binding
    refine ⟨?_, fun hne => ?_⟩
    · rw [hadded, hbinding, List.any_append]
      simp [Block.matchesEntities, hp]
    · by_contra hnone
      have hnone' : o.binding = none := Option.not_isSome_iff_eq_none.mp hnone
      -- without a variable after this block there was none before, and the block has no path to
      -- show
      have hpath : o.path = none := by
        cases hpath : o.path with
        | none => rfl
        | some path => exact absurd (hemits.isSome_binding_of_path (by simp [hpath])) hnone
      have hkept : a.shown = [] := by
        by_contra hshownNe
        rw [hadded, hshown hshownNe] at hnone
        exact hnone rfl
      apply hne
      simp [Assembly.add, addNew, hnone', hpath, hkept]

/-- A query is made of a chain exactly if the chain is compilable. -/
theorem chainQuery_isOk_iff : (∃ clauses, chainQuery chain = .ok clauses) ↔ Compilable chain := by
  constructor
  · rintro ⟨clauses, h⟩
    obtain ⟨a, hemitted, hreturned, -⟩ := chainQuery_eq_ok_iff.mp h
    obtain ⟨hvalid, horder⟩ := (emitFrom_eq_ok_iff true Assembly.empty).mp ⟨a, hemitted⟩
    obtain ⟨hbinding, hshown⟩ := emitChain_isSome_binding hemitted
    refine ⟨?_, horder rfl, hvalid⟩
    -- something is returned: the variables shown, or the current one
    have hsome : a.binding.isSome = true := by
      by_cases hne : a.shown = []
      · by_contra hnone
        apply hreturned
        simp [Assembly.returned, hne, Option.not_isSome_iff_eq_none.mp hnone]
      · exact hshown hne
    rw [hbinding] at hsome
    exact List.any_eq_true.mp hsome
  · rintro ⟨hmatched, hordered, hvalid⟩
    obtain ⟨a, hemitted⟩ := (emitFrom_eq_ok_iff true Assembly.empty).mpr ⟨hvalid, fun _ => hordered⟩
    obtain ⟨hbinding, -⟩ := emitChain_isSome_binding hemitted
    rw [List.any_eq_true.mpr hmatched] at hbinding
    refine ⟨_, chainQuery_eq_ok_iff.mpr ⟨a, hemitted, ?_, rfl⟩⟩
    unfold Assembly.returned
    obtain ⟨v, hv⟩ := Option.isSome_iff_exists.mp hbinding
    split
    · simp [hv]
    · simp_all

/-! ## 4. Which graphs compile -/

/-- A graph compiles without error exactly if it resolves to a compilable chain. -/
theorem compile_ok_iff_compilable (g : Graph) :
    (compile g).errors = [] ↔ ∃ r, Chain.resolve g = .ok r ∧ Compilable r.chain := by
  rw [compile_errors_eq_nil_iff]
  constructor
  · rintro ⟨r, clauses, hr, hquery, -⟩
    exact ⟨r, hr, chainQuery_isOk_iff.mp ⟨clauses, hquery⟩⟩
  · rintro ⟨r, hr, hchain⟩
    obtain ⟨clauses, hquery⟩ := chainQuery_isOk_iff.mpr hchain
    refine ⟨r, clauses, hr, hquery, ?_⟩
    simp [compile, query, hr, hquery]

end CypherBlocks
