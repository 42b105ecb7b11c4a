import CypherBlocks.Proofs.Emission
import CypherBlocks.Proofs.QuerySegments
import Mathlib.Data.List.Forall2

/-!
# The text of a compiled graph

Whatever text an author puts into the blocks of a graph, it stays text in the query: a reader finds
exactly the literals and the names in backticks that the chain calls for, ends outside of both, and
what is left depends on no such text but on whether it is blank, looks like a regular expression or
is a plain name.
-/

namespace CypherBlocks

open Cypher (Clause Comparison IsCode Names Reader isPattern isPlainName linesFrame linesText
  readText readText_linesText usable)

/-! ## 1. The texts that a chain puts into a query -/

namespace Params

/-- The texts that parameters compare with, in order. -/
def literals : Params → List String
  | .textSearch p => [Text.lower p.query]
  | .selectById id => [id]
  | .shortestPath p => if p.mode = "text" then [Text.lower p.targetQuery] else [p.targetId]
  | .ontologyFilter types => usable types
  | .nodeFilter p => usable p.labels
  | _ => []

/-- The relationship types that have to stand in backticks, in order. -/
def quotedNames : Params → List String
  | .neighborhood p => (usable p.relationshipTypes).filter fun s => !isPlainName s
  | _ => []

end Params

namespace Block

def literals (b : Block) : List String := b.params.toList.flatMap Params.literals

def quotedNames (b : Block) : List String := b.params.toList.flatMap Params.quotedNames

end Block

/-! ## 2. The words of a query are code -/

theorem Cypher.Names.isCode_entity (names : Names) : IsCode names.entity := by
  simp +decide [-Nat.toString_eq_repr, Names.entity]

theorem Cypher.Names.isCode_path (names : Names) : IsCode names.path := by
  simp +decide [-Nat.toString_eq_repr, Names.path]

theorem Cypher.Names.isCode_target (names : Names) : IsCode names.target := by
  simp +decide [-Nat.toString_eq_repr, Names.target]

theorem Cypher.isCode_property {node name : String} (hnode : IsCode node) (hname : IsCode name) :
    IsCode (Cypher.property node name) := by
  simp +decide [Cypher.property, hnode, hname]

/-- A block that finds only code before it. -/
structure EmitInput.IsCode (input : EmitInput) : Prop where
  binding : ∀ v, input.binding = some v → Cypher.IsCode v
  scope : ∀ v ∈ input.scope, Cypher.IsCode v

variable {input : EmitInput} {names names' : Names} {p q : Params} {o : Output}

theorem isCode_carried {scope : List String} {v : String} (hscope : ∀ v ∈ scope, IsCode v)
    (hv : IsCode v) : ∀ w ∈ carried scope v, IsCode w := by
  unfold carried
  split
  · exact hscope
  · rw [List.forall_mem_append]
    exact ⟨hscope, by simpa using hv⟩

/-- The words of a filter are those of the variables that it carries on and of what its conditions
compare. -/
theorem EmitInput.IsCode.filtered (hinput : input.IsCode) {binding : String}
    (hbinding : Cypher.IsCode binding) {conditions : List (List Comparison)}
    (hconditions : ∀ cs ∈ conditions, ∀ c ∈ cs, Cypher.IsCode c.property) :
    ∀ c ∈ (CypherBlocks.filtered input binding conditions).clauses, ∀ w ∈ c.words,
      Cypher.IsCode w := by
  simp only [CypherBlocks.filtered, Output.unchanged, List.forall_mem_cons, Clause.words]
  refine ⟨isCode_carried hinput.scope hbinding, ?_, by simp⟩
  intro w hw
  obtain ⟨c, hc, rfl⟩ := List.mem_map.mp hw
  obtain ⟨cs, hcs, hc⟩ := List.mem_flatten.mp hc
  exact hconditions cs hcs c hc

/-- The words of what a block contributes are code, and so are the variables that it leaves. -/
theorem Emits.isCode (h : Emits input names p o names') (hinput : input.IsCode) :
    (∀ c ∈ o.clauses, ∀ w ∈ c.words, IsCode w) ∧ (∀ v, o.binding = some v → IsCode v) ∧
      ∀ v, o.path = some v → IsCode v := by
  have hentity := names.isCode_entity
  have hpath := names.isCode_path
  have htarget := names.isCode_target
  -- new variables are code by their names, the others because they were so before
  cases h with
  | start | finish | andGate | orGate | notGate =>
    refine ⟨?_, hinput.binding, ?_⟩
    · simp [Output.unchanged, emitGate, Clause.words]
    · simp [Output.unchanged, emitGate]
  | resultLimit _ => exact ⟨by simp, hinput.binding, by simp⟩
  | edgeFilter _ _ =>
    exact ⟨by simp [Output.unchanged, Clause.words], hinput.binding, by simp [Output.unchanged]⟩
  | search _ =>
    refine ⟨?_, by simpa using hentity, by simp⟩
    simp only [List.forall_mem_cons, Clause.words]
    refine ⟨by simpa using hentity, ?_, isCode_carried hinput.scope hentity, by simp⟩
    simpa [Comparison.property] using Cypher.isCode_property hentity (by decide)
  | selectFirst _ _ => exact ⟨by simp +decide [Clause.words], by simp +decide, by simp⟩
  | selectLater _ _ =>
    exact ⟨by simpa [Clause.words] using hentity, by simpa using hentity, by simp⟩
  | neighborhood hbound _ _ _ _ =>
    have hsource := hinput.binding _ hbound
    exact ⟨by simp [Clause.words, hpath, hsource, hentity], by simpa using hentity,
      by simpa using hpath⟩
  | @shortestPath p source condition hbound hcondition _ _ =>
    have hsource := hinput.binding _ hbound
    have hproperty : IsCode condition.property := by
      rcases property_of_targetCondition hcondition with h | h
      · rw [h]
        exact Cypher.isCode_property htarget (by decide)
      · rw [h]
        exact Cypher.isCode_property htarget (by decide)
    exact ⟨by simp [Clause.words, hpath, hsource, htarget, hproperty], by simpa using hsource,
      by simpa using hpath⟩
  | @ontologyFilter types binding hbound _ =>
    have hbinding := hinput.binding _ hbound
    refine ⟨hinput.filtered hbinding ?_, hinput.binding, by simp [filtered, Output.unchanged]⟩
    intro cs hcs c hc
    rw [List.mem_singleton.mp hcs] at hc
    rw [Cypher.property_of_mem_comparisons hc]
    exact Cypher.isCode_property hbinding (by decide)
  | @nodeFilter p binding hbound _ _ =>
    have hbinding := hinput.binding _ hbound
    refine ⟨hinput.filtered hbinding ?_, hinput.binding, by simp [filtered, Output.unchanged]⟩
    intro cs hcs c hc
    rcases property_of_mem_nodeConditions hcs hc with h | h
    · rw [h]
      exact Cypher.isCode_property hbinding (by decide)
    · rw [h]
      exact Cypher.isCode_property hbinding (by decide)

/-! ## 3. What a block contributes is what it calls for -/

theorem literals_ofTerm (property term : String) :
    (Comparison.ofTerm property term).literals = [term] := by
  unfold Comparison.ofTerm
  split <;> rfl

theorem literals_comparisons (property : String) (terms : List String) :
    (Cypher.comparisons property terms).flatMap Comparison.literals = usable terms := by
  unfold Cypher.comparisons
  rw [List.flatMap_map]
  simp only [literals_ofTerm, List.flatMap_singleton']

theorem literals_nodeConditions (binding : String) (p : NodeFilter) :
    (labelConditions binding p.labels ++ confidenceConditions binding p.minConfidence).flatMap
      (·.flatMap Comparison.literals) = usable p.labels := by
  have hlabels : (labelConditions binding p.labels).flatMap (·.flatMap Comparison.literals) =
      usable p.labels := by
    rw [← literals_comparisons (Cypher.property binding "label")]
    unfold labelConditions
    split
    · rename_i hnone
      rw [hnone]
      rfl
    · simp
  have hconfidence : (confidenceConditions binding p.minConfidence).flatMap
      (·.flatMap Comparison.literals) = [] := by
    unfold confidenceConditions
    split <;> rfl
  rw [List.flatMap_append, hlabels, hconfidence, List.append_nil]

theorem literals_targetCondition {p : ShortestPath} {target : String} {c : Comparison}
    (h : targetCondition p target = .ok c) : c.literals = (Params.shortestPath p).literals := by
  unfold Params.literals
  rcases targetCondition_eq_ok_iff.mp h with ⟨hmode, -, rfl⟩ | ⟨hmode, -, rfl⟩
  · rcases List.mem_pair.mp hmode with hmode | hmode <;> simp only [hmode] <;> rfl
  · simp only [hmode]
    rfl

/-- The literals of what a block contributes are the texts that it compares with. -/
theorem Emits.literals_eq (h : Emits input names p o names') :
    o.clauses.flatMap Clause.literals = p.literals := by
  cases h with
  | start | finish | edgeFilter _ _ | andGate | orGate | notGate | resultLimit _ => rfl
  | search _ =>
    simp only [List.flatMap_cons, Clause.literals_filter]
    rfl
  | selectFirst _ _ | selectLater _ _ => rfl
  | neighborhood _ _ _ _ _ =>
    simp only [Clause.literals, Clause.segments, List.flatMap_cons, List.flatMap_append,
      Cypher.flatMap_literals_typeSegments]
    rfl
  | shortestPath _ hcondition _ _ =>
    rw [← literals_targetCondition hcondition]
    simp [Clause.literals, Clause.segments, Cypher.Segment.literals, Comparison.literals]
  | ontologyFilter _ _ =>
    simp only [filtered, Output.unchanged, List.flatMap_cons, Clause.literals_filter,
      literals_comparisons]
    simp [Clause.literals, Clause.segments, Cypher.Segment.literals, Params.literals]
  | nodeFilter _ _ _ =>
    simp only [filtered, Output.unchanged, List.flatMap_cons, Clause.literals_filter,
      literals_nodeConditions]
    simp [Clause.literals, Clause.segments, Cypher.Segment.literals, Params.literals]

/-- The names in backticks of what a block contributes are its relationship types that are not plain
names. -/
theorem Emits.names_eq (h : Emits input names p o names') :
    o.clauses.flatMap Clause.names = p.quotedNames := by
  cases h with
  | start | finish | edgeFilter _ _ | andGate | orGate | notGate | resultLimit _ => rfl
  | search _ =>
    simp only [List.flatMap_cons, Clause.names_filter]
    rfl
  | selectFirst _ _ | selectLater _ _ => rfl
  | neighborhood _ _ _ _ _ =>
    simp only [Clause.names, Clause.segments, List.flatMap_cons, List.flatMap_append,
      Cypher.flatMap_names_typeSegments]
    simp [Cypher.Segment.names, Params.quotedNames]
  | shortestPath _ _ _ _ =>
    simp [Clause.names, Clause.segments, Cypher.Segment.names, Comparison.flatMap_names,
      Params.quotedNames]
  | ontologyFilter _ _ | nodeFilter _ _ _ =>
    simp only [filtered, Output.unchanged, List.flatMap_cons, Clause.names_filter]
    rfl

/-! ## 4. Reading a query back -/

/-- What has been emitted is code but for the texts that the blocks so far call for. -/
structure ReadsBack (done : List Block) (a : Assembly) : Prop where
  words : ∀ c ∈ a.clauses, ∀ w ∈ c.words, IsCode w
  binding : ∀ v, a.binding = some v → IsCode v
  scope : ∀ v ∈ a.scope, IsCode v
  shown : ∀ v ∈ a.shown, IsCode v
  literals : a.clauses.flatMap Clause.literals = done.flatMap Block.literals
  names : a.clauses.flatMap Clause.names = done.flatMap Block.quotedNames

theorem isCode_addNew {vs : List String} {v : Option String} (hvs : ∀ w ∈ vs, IsCode w)
    (hv : ∀ w, v = some w → IsCode w) : ∀ w ∈ addNew vs v, IsCode w := by
  unfold addNew
  split
  · rename_i v
    split
    · exact hvs
    · rw [List.forall_mem_append]
      exact ⟨hvs, by simpa using hv v rfl⟩
  · exact hvs

theorem emitChain_readsBack {chain : List Block} {a : Assembly}
    (h : (emitChain chain).outcome = .ok a) : ReadsBack chain a := by
  refine emitChain_invariant ReadsBack ?_ ?_ h
  · exact ⟨by simp [Assembly.empty], by simp [Assembly.empty], by simp [Assembly.empty],
      by simp [Assembly.empty], rfl, rfl⟩
  · intro done a b p o names' hinv hp hemits
    obtain ⟨hwords, hbinding, hpath⟩ := hemits.isCode ⟨hinv.binding, hinv.scope⟩
    have hshown : ∀ w ∈ (if done.isEmpty then addNew a.shown o.binding else a.shown), IsCode w := by
      split
      · exact isCode_addNew hinv.shown hbinding
      · exact hinv.shown
    refine ⟨?_, hbinding, ?_, ?_, ?_, ?_⟩
    · exact List.forall_mem_append.mpr ⟨hinv.words, hwords⟩
    · exact isCode_addNew (isCode_addNew hinv.scope hbinding) hpath
    · exact isCode_addNew hshown hpath
    · change (a.clauses ++ o.clauses).flatMap Clause.literals = _
      rw [List.flatMap_append, List.flatMap_append, hinv.literals, hemits.literals_eq]
      simp [Block.literals, hp]
    · change (a.clauses ++ o.clauses).flatMap Clause.names = _
      rw [List.flatMap_append, List.flatMap_append, hinv.names, hemits.names_eq]
      simp [Block.quotedNames, hp]

/-! ## 5. Chains that differ in texts only -/

/-- Texts that a block uses alike: both or neither are blank, look like a regular expression, or are
a plain name once trimmed. -/
structure SameUse (s t : String) : Prop where
  blank : Text.isBlank s = Text.isBlank t
  pattern : isPattern s = isPattern t
  plain : isPlainName (Text.trim s) = isPlainName (Text.trim t)

/-- A relationship type that is a plain name is not put in backticks, so it has to stay. -/
structure SameType (s t : String) : Prop extends SameUse s t where
  kept : isPlainName (Text.trim s) = true → Text.trim s = Text.trim t

/-- Parameters that differ only in texts that are put in quotes, in backticks or into a comment. -/
inductive Params.Alike : Params → Params → Prop where
  | textSearch {query query' : String} {limit : Int} (h : SameUse query query') :
      Alike (.textSearch ⟨query, limit⟩) (.textSearch ⟨query', limit⟩)
  | selectById {id id' : String} (h : SameUse id id') : Alike (.selectById id) (.selectById id')
  | neighborhood {p : Neighborhood} {types : List String}
      (h : List.Forall₂ SameType p.relationshipTypes types) :
      Alike (.neighborhood p) (.neighborhood { p with relationshipTypes := types })
  | shortestPath {p : ShortestPath} {id query : String} (hid : SameUse p.targetId id)
      (hquery : SameUse p.targetQuery query) :
      Alike (.shortestPath p) (.shortestPath { p with targetId := id, targetQuery := query })
  | ontologyFilter {types types' : List String} (h : List.Forall₂ SameUse types types') :
      Alike (.ontologyFilter types) (.ontologyFilter types')
  | nodeFilter {p : NodeFilter} {labels : List String} (h : List.Forall₂ SameUse p.labels labels) :
      Alike (.nodeFilter p) (.nodeFilter { p with labels := labels })
  | edgeFilter {types types' : List String} (h : List.Forall₂ SameUse types types') :
      Alike (.edgeFilter types) (.edgeFilter types')
  | same (p : Params) : Alike p p

/-- Blocks with alike parameters; their ids and labels do not matter. -/
def Block.Alike (b c : Block) : Prop := Option.Rel Params.Alike b.params c.params

/-- Texts of the same use have usable entries in the same places. -/
theorem usable_alike {R : String → String → Prop}
    (hblank : ∀ {s t}, R s t → Text.isBlank s = Text.isBlank t) {ss ts : List String}
    (h : List.Forall₂ R ss ts) :
    List.Forall₂ (fun s t => ∃ s' t', R s' t' ∧ s = Text.trim s' ∧ t = Text.trim t') (usable ss)
      (usable ts) := by
  rw [Cypher.usable_eq, Cypher.usable_eq]
  induction h with
  | nil => exact .nil
  | @cons s t ss ts hst _ ih =>
    rw [List.filter_cons, List.filter_cons, hblank hst]
    split
    · exact .cons ⟨s, t, hst, rfl, rfl⟩ ih
    · exact ih

theorem frame_comparisons {ss ts : List String} (property : String)
    (h : List.Forall₂ SameUse ss ts) :
    (Cypher.comparisons property ss).map Comparison.frame = (Cypher.comparisons property ts).map
      Comparison.frame := by
  have husable := usable_alike SameUse.blank h
  unfold Cypher.comparisons
  generalize usable ss = us, usable ts = ut at husable ⊢
  induction husable with
  | nil => rfl
  | cons hst _ ih =>
    obtain ⟨s', t', huse, rfl, rfl⟩ := hst
    have hpattern : isPattern (Text.trim s') = isPattern (Text.trim t') := by
      rw [Cypher.isPattern_trim, Cypher.isPattern_trim, huse.pattern]
    simp only [List.map_cons, ih, Comparison.frame_ofTerm property hpattern]

theorem frame_typeSegments_alike {ss ts : List String} (h : List.Forall₂ SameType ss ts) :
    (Cypher.typeSegments ss).flatMap Cypher.Segment.frame = (Cypher.typeSegments ts).flatMap
      Cypher.Segment.frame := by
  have husable := usable_alike (R := SameType) (fun h => h.blank) h
  have hframes : (usable ss).map (fun s => (Cypher.typeSegment s).frame) =
      (usable ts).map fun s => (Cypher.typeSegment s).frame := by
    generalize usable ss = us, usable ts = ut at husable ⊢
    induction husable with
    | nil => rfl
    | cons hst _ ih =>
      obtain ⟨s', t', htype, rfl, rfl⟩ := hst
      simp only [List.map_cons, ih, Cypher.frame_typeSegment htype.plain htype.kept]
  exact Cypher.frame_typeSegments hframes

/-- Outputs that differ in payload only. -/
structure Output.SameFrame (o o' : Output) : Prop where
  clauses : o.clauses.map Clause.frame = o'.clauses.map Clause.frame
  binding : o.binding = o'.binding
  path : o.path = o'.path
  cap : o.cap = o'.cap

theorem Output.SameFrame.refl (o : Output) : o.SameFrame o := ⟨rfl, rfl, rfl, rfl⟩

theorem exists_term_of_sameUse {ss ts : List String} (h : List.Forall₂ SameUse ss ts)
    (hs : ∃ s ∈ ss, Text.isBlank s = false) : ∃ t ∈ ts, Text.isBlank t = false := by
  induction h with
  | nil => exact hs
  | cons hst _ ih =>
    rw [List.exists_mem_cons_iff] at hs ⊢
    exact hs.imp (fun hblank => hst.blank ▸ hblank) ih

theorem frame_labelConditions {ss ts : List String} (binding : String)
    (h : List.Forall₂ SameUse ss ts) :
    (labelConditions binding ss).map (·.map Comparison.frame) = (labelConditions binding ts).map
      (·.map Comparison.frame) := by
  have hframes := frame_comparisons (Cypher.property binding "label") h
  unfold labelConditions
  cases hs : Cypher.comparisons (Cypher.property binding "label") ss with
  | nil =>
    rw [hs] at hframes
    rw [List.map_eq_nil_iff.mp hframes.symm]
  | cons c cs =>
    cases ht : Cypher.comparisons (Cypher.property binding "label") ts with
    | nil => simp [hs, ht] at hframes
    | cons d ds =>
      rw [hs, ht] at hframes
      exact congrArg (fun x => [x]) hframes

theorem targetCondition_alike {p : ShortestPath} {id query target : String} {c : Comparison}
    (hid : SameUse p.targetId id) (hquery : SameUse p.targetQuery query)
    (h : targetCondition p target = .ok c) :
    ∃ d, targetCondition { p with targetId := id, targetQuery := query } target = .ok d ∧
      c.frame = d.frame := by
  rcases targetCondition_eq_ok_iff.mp h with ⟨hmode, hblank, rfl⟩ | ⟨hmode, hblank, rfl⟩
  · exact ⟨_, targetCondition_eq_ok_iff.mpr (.inl ⟨hmode, hid.blank ▸ hblank, rfl⟩), rfl⟩
  · exact ⟨_, targetCondition_eq_ok_iff.mpr (.inr ⟨hmode, hquery.blank ▸ hblank, rfl⟩), rfl⟩

/-- Alike parameters contribute outputs that differ in payload only. -/
theorem Emits.alike (h : Emits input names p o names') (hpq : p.Alike q) :
    ∃ o', Emits input names q o' names' ∧ o.SameFrame o' := by
  cases hpq with
  | same => exact ⟨o, h, .refl o⟩
  | textSearch huse =>
    cases h with
    | search hquery => exact ⟨_, .search (huse.blank ▸ hquery), ⟨rfl, rfl, rfl, rfl⟩⟩
  | selectById huse =>
    cases h with
    | selectFirst hid hfirst =>
      exact ⟨_, .selectFirst (huse.blank ▸ hid) hfirst, ⟨rfl, rfl, rfl, rfl⟩⟩
    | selectLater hid hlater =>
      exact ⟨_, .selectLater (huse.blank ▸ hid) hlater, ⟨rfl, rfl, rfl, rfl⟩⟩
  | neighborhood htypes =>
    cases h with
    | neighborhood hbound hleast hgreatest harrow hstatus =>
      refine ⟨_, .neighborhood hbound hleast hgreatest harrow ?_, ⟨?_, rfl, rfl, rfl⟩⟩
      · rw [Cypher.usable_ne_nil_iff] at hstatus ⊢
        exact hstatus.imp_left (exists_term_of_sameUse (htypes.imp fun _ _ h => h.toSameUse))
      · simp only [List.map_singleton, Clause.frame, Clause.segments, List.flatMap_append,
          List.flatMap_cons, frame_typeSegments_alike htypes]
  | shortestPath hid hquery =>
    cases h with
    | shortestPath hbound hcondition hleast hgreatest =>
      obtain ⟨d, hd, hframe⟩ := targetCondition_alike hid hquery hcondition
      refine ⟨_, .shortestPath hbound hd hleast hgreatest, ⟨?_, rfl, rfl, rfl⟩⟩
      exact congrArg (fun x => [_ ++ x, _]) hframe
  -- conditions differ in their literals only, and there is one if there was one
  | @ontologyFilter types types' htypes =>
    cases h with
    | @ontologyFilter _ binding hbound hne =>
      rw [Cypher.comparisons_ne_nil_iff] at hne
      have hne' := (Cypher.comparisons_ne_nil_iff (Cypher.property binding "ontology_type")).mpr
        (exists_term_of_sameUse htypes hne)
      refine ⟨_, .ontologyFilter hbound hne', ⟨?_, rfl, rfl, rfl⟩⟩
      have hframes : [Cypher.comparisons (Cypher.property binding "ontology_type") types].map
          (·.map Comparison.frame) = [Cypher.comparisons (Cypher.property binding "ontology_type")
          types'].map (·.map Comparison.frame) :=
        congrArg (fun x => [x]) (frame_comparisons _ htypes)
      exact congrArg (fun x => [_, x]) (Clause.frame_filter hframes)
  | @nodeFilter p labels hlabels =>
    cases h with
    | @nodeFilter _ binding hbound hfinite hne =>
      have hframes : (labelConditions binding p.labels ++ confidenceConditions binding
          p.minConfidence).map (·.map Comparison.frame) =
          (labelConditions binding labels ++ confidenceConditions binding p.minConfidence).map
          (·.map Comparison.frame) := by
        rw [List.map_append, List.map_append, frame_labelConditions binding hlabels]
      refine ⟨_, .nodeFilter hbound hfinite ?_, ⟨?_, rfl, rfl, rfl⟩⟩
      · intro hnone
        simp only at hnone
        rw [hnone] at hframes
        exact hne (List.map_eq_nil_iff.mp hframes)
      · exact congrArg (fun x => [_, x]) (Clause.frame_filter hframes)
  | edgeFilter htypes =>
    cases h with
    | edgeFilter hbound hne =>
      rw [Cypher.usable_ne_nil_iff] at hne
      have hne' := Cypher.usable_ne_nil_iff.mpr (exists_term_of_sameUse htypes hne)
      exact ⟨_, .edgeFilter hbound hne', ⟨rfl, rfl, rfl, rfl⟩⟩

/-- Assemblies that differ in payload only. -/
structure Assembly.SameFrame (a a' : Assembly) : Prop where
  clauses : a.clauses.map Clause.frame = a'.clauses.map Clause.frame
  shown : a.shown = a'.shown
  scope : a.scope = a'.scope
  cap : a.cap = a'.cap
  binding : a.binding = a'.binding
  names : a.names = a'.names

theorem Assembly.SameFrame.add {a a' : Assembly} {o o' : Output} (ha : a.SameFrame a')
    (ho : o.SameFrame o') (first : Bool) (names : Names) :
    (a.add first o names).SameFrame (a'.add first o' names) := by
  refine ⟨?_, ?_, ?_, ?_, ho.binding, rfl⟩
  · simp only [Assembly.add, List.map_append, ha.clauses, ho.clauses]
  · simp only [Assembly.add, ha.shown, ho.binding, ho.path]
  · simp only [Assembly.add, ha.scope, ho.binding, ho.path]
  · simp only [Assembly.add, ha.cap, ho.cap]

/-- Alike chains are emitted alike: if one is emitted so is the other, and the results differ in
payload only. -/
theorem emitFrom_alike {chain chain' : List Block} (h : List.Forall₂ Block.Alike chain chain')
    {first : Bool} {a a' b : Assembly} (ha : a.SameFrame a')
    (hemitted : (emitFrom first a chain).outcome = .ok b) :
    ∃ b', (emitFrom first a' chain').outcome = .ok b' ∧ b.SameFrame b' := by
  induction h generalizing first a a' with
  | nil =>
    rw [emitFrom_nil_outcome] at hemitted
    cases hemitted
    exact ⟨a', rfl, ha⟩
  | @cons c c' rest rest' hc _ ih =>
    obtain ⟨p, o, names', hp, hemits, hrest⟩ := emitFrom_cons_eq_ok_iff.mp hemitted
    unfold Block.Alike at hc
    rw [hp] at hc
    obtain ⟨q, hq, hpq⟩ : ∃ q, c'.params = some q ∧ p.Alike q := by
      generalize c'.params = params at hc
      cases hc with
      | some hpq => exact ⟨_, rfl, hpq⟩
    obtain ⟨o', hemits', ho⟩ := hemits.alike hpq
    obtain ⟨b', hb', hsame⟩ := ih (ha.add ho first names') hrest
    -- the second block starts from what the first chain has built, which is the same for both
    rw [ha.binding, ha.scope, ha.names] at hemits'
    exact ⟨b', emitFrom_cons_eq_ok_iff.mpr ⟨q, o', names', hq, hemits', hb'⟩, hsame⟩

/-! ## 6. The whole query -/

/-- A query ends with its RETURN or its LIMIT. -/
theorem Assembly.query_eq_concat (a : Assembly) :
    ∃ clauses last, a.clauses ++ .returnDistinct a.returned :: a.capClauses = clauses ++ [last] ∧
      ∀ s, last ≠ .note s := by
  unfold capClauses
  cases a.cap with
  | none => exact ⟨_, _, rfl, by simp⟩
  | some n => exact ⟨a.clauses ++ [.returnDistinct a.returned], .limit n, by simp, by simp⟩

theorem ReadsBack.isCode_returned {done : List Block} {a : Assembly} (h : ReadsBack done a) :
    ∀ v ∈ a.returned, IsCode v := by
  unfold Assembly.returned
  split
  · simpa using h.binding
  · exact h.shown

theorem Assembly.words_capClauses (a : Assembly) : ∀ c ∈ a.capClauses, ∀ w ∈ c.words, IsCode w := by
  unfold capClauses
  cases a.cap with
  | none => simp
  | some n => simp [Clause.words, -Int.toString_eq_repr]

theorem Assembly.flatMap_capClauses {α : Type} {f : Clause → List α} (h : ∀ n, f (.limit n) = [])
    (a : Assembly) : a.capClauses.flatMap f = [] := by
  unfold capClauses
  cases a.cap with
  | none => rfl
  | some n => simp [h]

/-- The query of a chain is read back as the texts its blocks call for. -/
theorem readText_query {chain : List Block} {a : Assembly} (h : (emitChain chain).outcome = .ok a) :
    readText (linesText (a.clauses ++ .returnDistinct a.returned :: a.capClauses)) =
      .ready (chain.flatMap Block.literals) (chain.flatMap Block.quotedNames)
        (linesFrame (a.clauses ++ .returnDistinct a.returned :: a.capClauses)) := by
  have hback := emitChain_readsBack h
  have hwords : ∀ c ∈ a.clauses ++ .returnDistinct a.returned :: a.capClauses, ∀ w ∈ c.words,
      IsCode w := by
    rw [List.forall_mem_append, List.forall_mem_cons]
    exact ⟨hback.words, hback.isCode_returned, a.words_capClauses⟩
  have hliterals : (a.clauses ++ .returnDistinct a.returned :: a.capClauses).flatMap
      Clause.literals = chain.flatMap Block.literals := by
    rw [List.flatMap_append, List.flatMap_cons, a.flatMap_capClauses fun _ => rfl, hback.literals]
    exact List.append_nil _
  have hnames : (a.clauses ++ .returnDistinct a.returned :: a.capClauses).flatMap Clause.names =
      chain.flatMap Block.quotedNames := by
    rw [List.flatMap_append, List.flatMap_cons, a.flatMap_capClauses fun _ => rfl, hback.names]
    exact List.append_nil _
  rw [← hliterals, ← hnames]
  -- the last clause is no note, so that the text does not end inside a comment
  obtain ⟨clauses, last, hconcat, hnote⟩ := a.query_eq_concat
  rw [hconcat] at hwords ⊢
  exact readText_linesText hnote hwords

theorem Assembly.SameFrame.linesFrame_query {a a' : Assembly} (h : a.SameFrame a') :
    linesFrame (a.clauses ++ .returnDistinct a.returned :: a.capClauses) =
      linesFrame (a'.clauses ++ .returnDistinct a'.returned :: a'.capClauses) := by
  unfold linesFrame Assembly.returned Assembly.capClauses
  rw [List.map_append, List.map_append, h.clauses, h.shown, h.binding, h.cap]

/-- A query gives back, read as Cypher, the texts that the blocks of its chain call for, each as a
literal or a quoted name of its own; what is left of the query does not depend on them. -/
theorem compile_text_reads_back (g : Graph) (h : (compile g).errors = []) :
    ∃ r, Chain.resolve g = .ok r ∧
      (readText (compile g).text).isOutside = true ∧
      (readText (compile g).text).literals = r.chain.flatMap Block.literals ∧
      (readText (compile g).text).names = r.chain.flatMap Block.quotedNames ∧
      ∀ g' r', Chain.resolve g' = .ok r' → List.Forall₂ Block.Alike r.chain r'.chain →
        (compile g').errors = [] ∧
          (readText (compile g').text).frame = (readText (compile g).text).frame := by
  obtain ⟨r, clauses, hr, hclauses, htext⟩ := compile_errors_eq_nil_iff.mp h
  obtain ⟨a, ha, hreturned, rfl⟩ := chainQuery_eq_ok_iff.mp hclauses
  rw [htext, readText_query ha]
  refine ⟨r, hr, rfl, rfl, rfl, fun g' r' hr' halike => ?_⟩
  obtain ⟨a', ha', hsame⟩ := emitFrom_alike halike ⟨rfl, rfl, rfl, rfl, rfl, rfl⟩ ha
  have hreturned' : a'.returned ≠ [] := by
    unfold Assembly.returned at hreturned ⊢
    rwa [← hsame.shown, ← hsame.binding]
  have hclauses' := chainQuery_eq_ok_iff.mpr ⟨a', ha', hreturned', rfl⟩
  obtain ⟨hok, htext'⟩ := compile_of_chainQuery hr' hclauses'
  rw [htext', readText_query ha', hsame.linesFrame_query]
  exact ⟨hok, rfl⟩

/-- A search for a text that would end a literal and begin a comment, along relationships of a type
that would end a name. -/
def hostileGraph : Graph where
  blocks := [⟨"start", "", some .start⟩, ⟨"find", "", some (.textSearch ⟨"O'Hara\\' // \x60", 0⟩)⟩,
    ⟨"near", "", some (.neighborhood ⟨"out", 2, ["KNOWS", " a\x60]-() // b "], [], []⟩)⟩]
  connections := [⟨"start", "find"⟩, ⟨"find", "near"⟩]

theorem hostileGraph_reads_back :
    (compile hostileGraph).errors = [] ∧
      (readText (compile hostileGraph).text).isOutside = true ∧
      (readText (compile hostileGraph).text).literals = ["o'hara\\' // \x60"] ∧
      (readText (compile hostileGraph).text).names = ["a\x60]-() // b"] := by
  have hok : (compile hostileGraph).errors = [] := by decide +kernel
  obtain ⟨r, hr, houtside, hliterals, hnames, -⟩ := compile_text_reads_back hostileGraph hok
  have hchain : Chain.resolve hostileGraph = .ok ⟨hostileGraph.blocks.drop 1,
      [Chain.missingEndWarning]⟩ := by
    decide +kernel
  cases hr.symm.trans hchain
  exact ⟨hok, houtside, hliterals.trans (by decide +kernel), hnames.trans (by decide +kernel)⟩

end CypherBlocks
