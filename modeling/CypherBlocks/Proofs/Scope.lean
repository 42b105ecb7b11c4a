import CypherBlocks.Proofs.Emission
import Mathlib.Data.List.Induction

/-!
# The variables of a compiled graph

A clause does one or two things with variables: a pattern starts from variables that are in scope
and introduces others, a condition mentions some, WITH replaces the scope by a list, RETURN ends the
query with one.  The query of a graph that compiles mentions only what is in scope, introduces no
variable twice and forgets none that it mentions later.
-/

namespace CypherBlocks.Cypher

/-! ## 1. What clauses do with variables -/

inductive ScopeStep where
  | pattern (sources introduced : List String)
  | condition (mentioned : List String)
  | carry (names : List String)
  | result (names : List String)
  deriving Repr, DecidableEq

namespace ScopeStep

/-- The variables that have to be in scope. -/
def mentioned : ScopeStep → List String
  | .pattern sources _ => sources
  | .condition vs => vs
  | .carry vs => vs
  | .result vs => vs

def introduced : ScopeStep → List String
  | .pattern _ vs => vs
  | _ => []

/-- The scope after a step. -/
def after (scope : List String) : ScopeStep → List String
  | .pattern _ vs => scope ++ vs
  | .carry vs => vs
  | _ => scope

end ScopeStep

/-- The variable whose property is compared. -/
def Comparison.node (c : Comparison) : String :=
  String.ofList (c.property.toList.takeWhile (· ≠ '.'))

/-- What a clause does with variables, in order. -/
def Clause.scopeSteps : Clause → List ScopeStep
  | .matchNode v => [.pattern [] [v]]
  | .matchId v _ => [.pattern [] [v]]
  | .matchWhere v c => [.pattern [] [v], .condition [c.node]]
  | .matchPath path source _ _ _ target => [.pattern [source] [path, target]]
  | .matchShortest path source _ target => [.pattern [source, target] [path]]
  | .filter conditions => [.condition (conditions.flatten.map Comparison.node)]
  | .carry names _ => [.carry names]
  | .note _ => []
  | .returnDistinct names => [.result names]
  | .limit _ => []

/-- The scope after some steps, from none. -/
def scopeAfter (steps : List ScopeStep) : List String := steps.foldl ScopeStep.after []

/-- The variables introduced so far. -/
def introducedBy (steps : List ScopeStep) : List String := steps.flatMap ScopeStep.introduced

/-- A step that is right after some others. -/
structure ScopeStep.Follows (before : List ScopeStep) (s : ScopeStep) : Prop where
  inScope : ∀ v ∈ s.mentioned, v ∈ scopeAfter before
  fresh : ∀ v ∈ s.introduced, v ∉ introducedBy before
  distinct : s.introduced.Nodup
  listed : ∀ vs, s = .carry vs ∨ s = .result vs → vs.Nodup

/-- Steps of which each is right after those before it. -/
def WellScoped (steps : List ScopeStep) : Prop :=
  ∀ before s rest, steps = before ++ s :: rest → s.Follows before

variable {steps : List ScopeStep} {s : ScopeStep}

theorem wellScoped_nil : WellScoped [] := by
  intro before s rest h
  simp at h

/-- One more step. -/
theorem WellScoped.concat (h : WellScoped steps) (hs : s.Follows steps) :
    WellScoped (steps ++ [s]) := by
  intro before t rest heq
  rcases List.eq_nil_or_concat rest with rfl | ⟨init, last, rfl⟩
  · obtain ⟨rfl, hcons⟩ := List.append_inj' heq rfl
    cases hcons
    exact hs
  · have heq' : steps ++ [s] = (before ++ t :: init) ++ [last] := by simpa using heq
    exact h before t init (List.append_inj' heq' rfl).1

@[simp] theorem scopeAfter_append (steps rest : List ScopeStep) :
    scopeAfter (steps ++ rest) = rest.foldl ScopeStep.after (scopeAfter steps) := List.foldl_append

@[simp] theorem introducedBy_append (steps rest : List ScopeStep) :
    introducedBy (steps ++ rest) = introducedBy steps ++ introducedBy rest := List.flatMap_append

theorem WellScoped.init {rest : List ScopeStep} (h : WellScoped (steps ++ rest)) :
    WellScoped steps := by
  intro before t after heq
  exact h before t (after ++ rest) (by simp [heq])

theorem WellScoped.last (h : WellScoped (steps ++ [s])) : s.Follows steps := h steps s [] rfl

/-- What is in scope after a step was so before it, or the step introduces it. -/
theorem ScopeStep.Follows.mem_scopeAfter {v : String} (hs : s.Follows steps)
    (hv : v ∈ scopeAfter (steps ++ [s])) : v ∈ scopeAfter steps ∨ v ∈ s.introduced := by
  rw [scopeAfter_append] at hv
  cases s with
  | pattern sources vs => exact List.mem_append.mp hv
  | carry vs => exact .inl (hs.inScope v hv)
  | condition vs => exact .inl hv
  | result vs => exact .inl hv

/-- What is in scope has been introduced. -/
theorem WellScoped.mem_introducedBy {v : String} (h : WellScoped steps)
    (hv : v ∈ scopeAfter steps) : v ∈ introducedBy steps := by
  induction steps using List.reverseRecOn with
  | nil => exact hv
  | append_singleton init s ih =>
    rw [introducedBy_append, List.mem_append]
    rcases h.last.mem_scopeAfter hv with hold | hnew
    · exact .inl (ih h.init hold)
    · exact .inr (by simpa [introducedBy] using hnew)

/-- A variable that is introduced before a WITH and in scope some time after it stands in the list
of that WITH: it is not introduced again. -/
theorem WellScoped.mem_carried {before rest : List ScopeStep} {vs : List String} {v : String}
    (h : WellScoped (before ++ .carry vs :: rest)) (hv : v ∈ introducedBy before)
    (hlater : v ∈ scopeAfter (before ++ .carry vs :: rest)) : v ∈ vs := by
  induction rest using List.reverseRecOn with
  | nil => simpa [ScopeStep.after] using hlater
  | append_singleton init s ih =>
    have happend : before ++ .carry vs :: (init ++ [s]) = (before ++ .carry vs :: init) ++ [s] := by
      simp
    rw [happend] at h hlater
    rcases h.last.mem_scopeAfter hlater with hold | hnew
    · exact ih h.init hold
    · exact absurd (by simp [hv]) (h.last.fresh v hnew)

/-! ## 2. Names are not taken twice -/

/-- A letter and a number. -/
def numbered (letter : Char) (n : Nat) : String := String.ofList (letter :: Nat.toDigits 10 n)

theorem Names.entity_eq (names : Names) : names.entity = numbered 'n' names.number := by
  rw [← String.toList_inj]
  simp [Names.entity, numbered]

theorem Names.path_eq (names : Names) : names.path = numbered 'p' names.number := by
  rw [← String.toList_inj]
  simp [Names.path, numbered]

theorem Names.target_eq (names : Names) : names.target = numbered 't' names.number := by
  rw [← String.toList_inj]
  simp [Names.target, numbered]

theorem numbered_inj {c d : Char} {m n : Nat} : numbered c m = numbered d n ↔ c = d ∧ m = n := by
  refine ⟨fun h => ?_, fun ⟨hc, hn⟩ => by rw [hc, hn]⟩
  rw [numbered, numbered, String.ofList_inj, List.cons.injEq] at h
  refine ⟨h.1, ?_⟩
  have hread := congrArg (fun digits => Nat.ofDigitChars 10 digits 0) h.2
  simpa using hread

theorem not_mem_numbered {c letter : Char} (hletter : c ≠ letter) (hdigit : c.isDigit = false)
    (n : Nat) : c ∉ (numbered letter n).toList := by
  rw [numbered, String.toList_ofList, List.mem_cons, not_or]
  refine ⟨hletter, fun hc => ?_⟩
  rw [Nat.isDigit_of_mem_toDigits (by decide) (by decide) hc] at hdigit
  cases hdigit

theorem numbered_ne_canonical (c : Char) (n : Nat) : numbered c n ≠ Names.canonical := by
  intro h
  have hdigits := congrArg (List.drop 1 ∘ String.toList) h
  simp [numbered, Names.canonical] at hdigits

/-- The names that may have been given out: the canonical one and, with any letter, the numbers up
to the count. -/
def Names.Taken (names : Names) (v : String) : Prop :=
  v = canonical ∨ ∃ letter ∈ ['n', 'p', 't'], ∃ n ≤ names.count, v = numbered letter n

theorem Names.Taken.advance {names : Names} {v : String} (h : names.Taken v) :
    names.advance.Taken v := by
  rcases h with rfl | ⟨letter, hletter, n, hn, rfl⟩
  · exact .inl rfl
  · exact .inr ⟨letter, hletter, n, Nat.le_succ_of_le hn, rfl⟩

theorem Names.taken_entity (names : Names) : names.advance.Taken names.entity :=
  .inr ⟨'n', by decide, names.number, Nat.le_refl _, names.entity_eq⟩

theorem Names.taken_path (names : Names) : names.advance.Taken names.path :=
  .inr ⟨'p', by decide, names.number, Nat.le_refl _, names.path_eq⟩

theorem Names.taken_target (names : Names) : names.advance.Taken names.target :=
  .inr ⟨'t', by decide, names.number, Nat.le_refl _, names.target_eq⟩

theorem Names.path_ne_entity (names : Names) : names.path ≠ names.entity := by
  rw [path_eq, entity_eq, Ne, numbered_inj]
  exact fun h => absurd h.1 (by decide)

theorem Names.path_ne_target (names : Names) : names.path ≠ names.target := by
  rw [path_eq, target_eq, Ne, numbered_inj]
  exact fun h => absurd h.1 (by decide)

/-- A name with the next number is new. -/
theorem Names.not_taken_number (names : Names) (letter : Char) :
    ¬ names.Taken (numbered letter names.number) := by
  rintro (h | ⟨_, _, n, hn, h⟩)
  · exact numbered_ne_canonical _ _ h
  · have hnumber := (numbered_inj.mp h).2
    unfold Names.number at hnumber
    omega

/-- No name has a point in it, so a property tells the variable that it belongs to. -/
theorem Names.Taken.point_not_mem {names : Names} {v : String} (h : names.Taken v) :
    '.' ∉ v.toList := by
  rcases h with rfl | ⟨letter, hletter, n, _, rfl⟩
  · decide
  · rw [numbered, String.toList_ofList, List.mem_cons, not_or]
    constructor
    · rintro rfl
      revert hletter
      decide
    · intro hdigit
      have := Nat.isDigit_of_mem_toDigits (by decide) (by decide) hdigit
      revert this
      decide

theorem Comparison.node_eq {c : Comparison} {v name : String} (hv : '.' ∉ v.toList)
    (hc : c.property = Cypher.property v name) : c.node = v := by
  have hall : ∀ d ∈ v.toList, (d ≠ '.' : Bool) = true := by
    intro d hd
    rw [decide_eq_true_iff]
    rintro rfl
    exact hv hd
  rw [node, hc, ← String.toList_inj, String.toList_ofList]
  simp only [Cypher.property, String.toList_append, Text.toString_eq_self]
  rw [List.append_assoc, List.takeWhile_append_of_pos hall]
  simp

/-! ## 3. Right steps -/

section Steps

variable {before : List ScopeStep} {vs ws : List String}

theorem ScopeStep.Follows.pattern (hvs : ∀ v ∈ vs, v ∈ scopeAfter before)
    (hws : ∀ w ∈ ws, w ∉ introducedBy before) (hdistinct : ws.Nodup) :
    (ScopeStep.pattern vs ws).Follows before := ⟨hvs, hws, hdistinct, by simp⟩

theorem ScopeStep.Follows.condition (hvs : ∀ v ∈ vs, v ∈ scopeAfter before) :
    (ScopeStep.condition vs).Follows before :=
  ⟨hvs, by simp [ScopeStep.introduced], by simp [ScopeStep.introduced], by simp⟩

theorem ScopeStep.Follows.carry (hvs : ∀ v ∈ vs, v ∈ scopeAfter before) (hdistinct : vs.Nodup) :
    (ScopeStep.carry vs).Follows before :=
  ⟨hvs, by simp [ScopeStep.introduced], by simp [ScopeStep.introduced], by simpa using hdistinct⟩

theorem ScopeStep.Follows.result (hvs : ∀ v ∈ vs, v ∈ scopeAfter before) (hdistinct : vs.Nodup) :
    (ScopeStep.result vs).Follows before :=
  ⟨hvs, by simp [ScopeStep.introduced], by simp [ScopeStep.introduced], by simpa using hdistinct⟩

end Steps

end CypherBlocks.Cypher

namespace CypherBlocks

open Cypher (Clause Comparison Names ScopeStep WellScoped introducedBy numbered scopeAfter)

/-! ## 4. One block -/

theorem nodup_addNew {vs : List String} (h : vs.Nodup) (v : Option String) :
    (addNew vs v).Nodup := by
  unfold addNew
  split
  · split
    · exact h
    · rename_i v hv
      exact List.nodup_append.mpr
        ⟨h, by simp, by simpa using fun w hw (heq : w = v) => hv (heq ▸ hw)⟩
  · exact h

/-- What a block may rely on: the variables that it is told of are really in scope, and the next
number is really new. -/
structure EmitInput.Sound (input : EmitInput) (names : Names) (before : List ScopeStep) : Prop where
  wellScoped : WellScoped before
  taken : ∀ v ∈ introducedBy before, names.Taken v
  scope : ∀ v ∈ input.scope, v ∈ scopeAfter before
  distinct : input.scope.Nodup
  binding : ∀ v, input.binding = some v → v ∈ input.scope
  first : input.first = true → before = []

/-- What a block leaves: what was in scope still is, and so are the variables that the block tells
of. -/
structure Output.Sound (o : Output) (input : EmitInput) (names : Names) (steps : List ScopeStep) :
    Prop where
  wellScoped : WellScoped steps
  taken : ∀ v ∈ introducedBy steps, names.Taken v
  scope : ∀ v ∈ input.scope, v ∈ scopeAfter steps
  binding : ∀ v, o.binding = some v → v ∈ scopeAfter steps
  path : ∀ v, o.path = some v → v ∈ scopeAfter steps

section Blocks

variable {input : EmitInput} {names names' : Names} {p : Params} {o : Output}
  {before : List ScopeStep}

theorem EmitInput.Sound.fresh (h : input.Sound names before) (letter : Char) :
    numbered letter names.number ∉ introducedBy before :=
  fun hmem => names.not_taken_number letter (h.taken _ hmem)

theorem EmitInput.Sound.point_not_mem (h : input.Sound names before) {v : String}
    (hv : input.binding = some v) : '.' ∉ v.toList :=
  (h.taken v (h.wellScoped.mem_introducedBy (h.scope v (h.binding v hv)))).point_not_mem

/-- A block that takes no step, and tells of the current variable only, leaves the scope alone. -/
theorem EmitInput.Sound.unchanged (h : input.Sound names before)
    (hsteps : o.clauses.flatMap Clause.scopeSteps = []) (hbinding : o.binding = input.binding)
    (hpath : o.path = none) :
    o.Sound input names (before ++ o.clauses.flatMap Clause.scopeSteps) := by
  rw [hsteps, List.append_nil]
  refine ⟨h.wellScoped, h.taken, h.scope, fun v hv => ?_, fun v hv => ?_⟩
  · exact h.scope v (h.binding v (hbinding ▸ hv))
  · rw [hpath] at hv
    cases hv

/-- A filter on the current variable carries on all that is in scope. -/
theorem EmitInput.Sound.filtered (h : input.Sound names before) {v : String}
    (hv : input.binding = some v) {conditions : List (List Comparison)}
    (hconditions : ∀ cs ∈ conditions, ∀ c ∈ cs, c.node = v) :
    (CypherBlocks.filtered input v conditions).Sound input names
      (before ++ (CypherBlocks.filtered input v conditions).clauses.flatMap Clause.scopeSteps) := by
  have hscope : ∀ w ∈ carried input.scope v, w ∈ scopeAfter before := by
    intro w hw
    rcases mem_carried.mp hw with hw | rfl
    · exact h.scope w hw
    · exact h.scope w (h.binding w hv)
  -- two steps: the variables are carried on, and the condition looks at the current one
  have hcarry :=
    h.wellScoped.concat (ScopeStep.Follows.carry hscope (nodup_addNew h.distinct (some v)))
  have hcondition :=
    hcarry.concat (s := .condition (conditions.flatten.map Comparison.node)) (.condition (by
    intro w hw
    obtain ⟨c, hc, rfl⟩ := List.mem_map.mp hw
    obtain ⟨cs, hcs, hc⟩ := List.mem_flatten.mp hc
    rw [hconditions cs hcs c hc]
    simp [ScopeStep.after, mem_carried]))
  have hintroduced :
      introducedBy (before ++ (CypherBlocks.filtered input v conditions).clauses.flatMap
      Clause.scopeSteps) = introducedBy before := by
    simp [CypherBlocks.filtered, Output.unchanged, Clause.scopeSteps, introducedBy,
      ScopeStep.introduced]
  have hafter : scopeAfter (before ++ (CypherBlocks.filtered input v conditions).clauses.flatMap
      Clause.scopeSteps) = carried input.scope v := by
    simp [CypherBlocks.filtered, Output.unchanged, Clause.scopeSteps, ScopeStep.after]
  refine ⟨by simpa [CypherBlocks.filtered, Output.unchanged, Clause.scopeSteps] using hcondition,
    ?_, ?_, ?_, ?_⟩
  · rw [hintroduced]
    exact h.taken
  · rw [hafter]
    exact fun w hw => mem_carried.mpr (.inl hw)
  · rw [hafter]
    exact fun w hw => mem_carried.mpr (.inl (h.binding w hw))
  · simp [CypherBlocks.filtered, Output.unchanged]

/-- A block that is a single pattern, and tells of variables that the pattern introduces. -/
theorem EmitInput.Sound.introduces (h : input.Sound names before) (sources vs : List String)
    (hsources : ∀ v ∈ sources, v ∈ scopeAfter before) (hfresh : ∀ v ∈ vs, v ∉ introducedBy before)
    (hdistinct : vs.Nodup) (htaken : ∀ v ∈ introducedBy before ++ vs, names'.Taken v)
    (hbinding : ∀ v, o.binding = some v → v ∈ vs) (hpath : ∀ v, o.path = some v → v ∈ vs) :
    o.Sound input names' (before ++ [.pattern sources vs]) := by
  have hafter : scopeAfter (before ++ [.pattern sources vs]) = scopeAfter before ++ vs := by
    simp [ScopeStep.after]
  have hintroduced : introducedBy (before ++ [.pattern sources vs]) =
      introducedBy before ++ vs := by
    simp [introducedBy, ScopeStep.introduced]
  refine ⟨h.wellScoped.concat (.pattern hsources hfresh hdistinct), ?_, ?_, ?_, ?_⟩
  · rwa [hintroduced]
  · exact fun v hv => hafter ▸ List.mem_append_left vs (h.scope v hv)
  · exact fun v hv => hafter ▸ List.mem_append_right _ (hbinding v hv)
  · exact fun v hv => hafter ▸ List.mem_append_right _ (hpath v hv)

/-- A new entity that a condition looks at. -/
theorem EmitInput.Sound.finds (h : input.Sound names before) {v : String}
    (hv : v ∉ introducedBy before) :
    WellScoped (before ++ [.pattern [] [v]] ++ [.condition [v]]) := by
  have hpattern :=
    h.wellScoped.concat (s := .pattern [] [v]) (.pattern (by simp) (by simpa using hv) (by simp))
  exact hpattern.concat (.condition (by simp [ScopeStep.after]))

theorem EmitInput.Sound.taken_append (h : input.Sound names before) {vs : List String}
    (hvs : ∀ v ∈ vs, names.advance.Taken v) :
    ∀ v ∈ introducedBy before ++ vs, names.advance.Taken v :=
  List.forall_mem_append.mpr ⟨fun v hv => (h.taken v hv).advance, hvs⟩

/-- A search finds a new entity and then carries it on with all that is in scope. -/
theorem EmitInput.Sound.searched (h : input.Sound names before)
    (hbinding : o.binding = names.entity) (hpath : o.path = none) :
    o.Sound input names.advance (before ++ [.pattern [] [names.entity], .condition [names.entity],
      .carry (carried input.scope names.entity)]) := by
  have hentity : names.entity ∉ introducedBy before := names.entity_eq ▸ h.fresh 'n'
  have hcarry :=
    (h.finds hentity).concat (s := .carry (carried input.scope names.entity)) (.carry (by
    intro v hv
    rcases mem_carried.mp hv with hv | rfl
    · simp [ScopeStep.after, h.scope v hv]
    · simp [ScopeStep.after]) (nodup_addNew h.distinct (some names.entity)))
  refine ⟨by simpa using hcarry, ?_, ?_, ?_, by simp [hpath]⟩
  · rw [Cypher.introducedBy_append]
    exact h.taken_append
      (by simpa [introducedBy, ScopeStep.introduced] using names.taken_entity)
  · exact fun v hv => by simp [ScopeStep.after, mem_carried, hv]
  · simp [hbinding, ScopeStep.after, mem_carried]

/-- A shortest path finds its target first, and then leads there from the current variable. -/
theorem EmitInput.Sound.shortest (h : input.Sound names before) {source : String}
    (hsource : input.binding = some source) (hbinding : o.binding = source)
    (hpath : o.path = names.path) :
    o.Sound input names.advance (before ++ [.pattern [] [names.target], .condition [names.target],
      .pattern [source, names.target] [names.path]]) := by
  have hnew : names.path ∉ introducedBy before := names.path_eq ▸ h.fresh 'p'
  have htarget : names.target ∉ introducedBy before := names.target_eq ▸ h.fresh 't'
  have hscope := h.scope source (h.binding source hsource)
  have hshortest := (h.finds htarget).concat (s := .pattern [source, names.target] [names.path])
    (.pattern (by simp [ScopeStep.after, hscope]) (by
      rw [Cypher.introducedBy_append, Cypher.introducedBy_append]
      simp [introducedBy, ScopeStep.introduced, names.path_ne_target] at hnew ⊢
      exact hnew) (by simp))
  refine ⟨by simpa using hshortest, ?_, ?_, ?_, ?_⟩
  · rw [Cypher.introducedBy_append]
    exact h.taken_append
      (by simp [introducedBy, ScopeStep.introduced, names.taken_target, names.taken_path])
  · exact fun v hv => by simp [ScopeStep.after, h.scope v hv]
  · simp [hbinding, ScopeStep.after, hscope]
  · simp [hpath, ScopeStep.after]

/-- Each block mentions only what is in scope, introduces new variables only, and leaves in scope
what it tells of. -/
theorem Emits.sound (h : Emits input names p o names') (hin : input.Sound names before) :
    o.Sound input names' (before ++ o.clauses.flatMap Clause.scopeSteps) := by
  have hentity : names.entity ∉ introducedBy before := names.entity_eq ▸ hin.fresh 'n'
  have hpath : names.path ∉ introducedBy before := names.path_eq ▸ hin.fresh 'p'
  cases h with
  -- these only leave a note, or nothing at all
  | start => exact hin.unchanged rfl rfl rfl
  | finish => exact hin.unchanged rfl rfl rfl
  | andGate => exact hin.unchanged rfl rfl rfl
  | orGate => exact hin.unchanged rfl rfl rfl
  | notGate => exact hin.unchanged rfl rfl rfl
  | edgeFilter _ _ => exact hin.unchanged rfl rfl rfl
  | resultLimit _ => exact hin.unchanged rfl rfl rfl
  | selectFirst _ hfirst =>
    refine hin.introduces [] [Names.canonical] (by simp) ?_ (by simp) ?_ (by simp) (by simp)
    · simp [hin.first hfirst, introducedBy]
    · exact List.forall_mem_append.mpr ⟨hin.taken, by simpa using .inl rfl⟩
  | selectLater _ _ =>
    exact hin.introduces [] [names.entity] (by simp) (by simpa using hentity) (by simp)
      (hin.taken_append (by simpa using names.taken_entity)) (by simp) (by simp)
  | @neighborhood q source arrow hbound _ _ _ _ =>
    refine hin.introduces [source] [names.path, names.entity] ?_ ?_ ?_ (hin.taken_append ?_)
      (by simp) (by simp)
    · simpa using hin.scope source (hin.binding source hbound)
    · simp [hpath, hentity]
    · simp [names.path_ne_entity]
    · simp [names.taken_path, names.taken_entity]
  | @search q _ =>
    have hnode : (Comparison.contains (Cypher.property names.entity "label") q.query).node =
        names.entity :=
      Comparison.node_eq names.taken_entity.point_not_mem rfl
    simpa [Clause.scopeSteps, hnode] using hin.searched rfl rfl
  | @shortestPath q source condition hbound hcondition _ _ =>
    have hnode : condition.node = names.target := by
      rcases property_of_targetCondition hcondition with h | h
      · exact Comparison.node_eq names.taken_target.point_not_mem h
      · exact Comparison.node_eq names.taken_target.point_not_mem h
    simpa [Clause.scopeSteps, hnode] using hin.shortest hbound rfl rfl
  | ontologyFilter hbound _ =>
    refine hin.filtered hbound ?_
    intro cs hcs c hc
    rw [List.mem_singleton.mp hcs] at hc
    exact Comparison.node_eq (hin.point_not_mem hbound) (Cypher.property_of_mem_comparisons hc)
  | nodeFilter hbound _ _ =>
    refine hin.filtered hbound ?_
    intro cs hcs c hc
    rcases property_of_mem_nodeConditions hcs hc with h | h
    · exact Comparison.node_eq (hin.point_not_mem hbound) h
    · exact Comparison.node_eq (hin.point_not_mem hbound) h

/-- Only the end of a query returns. -/
theorem Emits.result_not_mem (h : Emits input names p o names') (vs : List String) :
    .result vs ∉ o.clauses.flatMap Clause.scopeSteps := by
  cases h <;> simp [Clause.scopeSteps, filtered, Output.unchanged, emitGate]

end Blocks

/-! ## 5. A chain -/

/-- An assembly whose variables are those of its clauses. -/
structure Tracks (done : List Block) (a : Assembly) : Prop where
  input : EmitInput.Sound ⟨a.binding, done.isEmpty, a.scope⟩ a.names
    (a.clauses.flatMap Clause.scopeSteps)
  shown : ∀ v ∈ a.shown, v ∈ a.scope
  distinct : a.shown.Nodup
  unfinished : ∀ vs, .result vs ∉ a.clauses.flatMap Clause.scopeSteps

theorem tracks_empty : Tracks [] Assembly.empty :=
  ⟨⟨Cypher.wellScoped_nil, by simp [Assembly.empty, introducedBy], by simp [Assembly.empty],
      by simp [Assembly.empty], by simp [Assembly.empty], fun _ => rfl⟩,
    by simp [Assembly.empty], by simp [Assembly.empty], by simp [Assembly.empty]⟩

/-- One block: its clauses are well scoped after those before, and what it leaves is in scope. -/
theorem Tracks.add {done : List Block} {a : Assembly} {b : Block} {p : Params} {o : Output}
    {names' : Names} (hinv : Tracks done a)
    (hemits : Emits ⟨a.binding, done.isEmpty, a.scope⟩ a.names p o names') :
    Tracks (done ++ [b]) (a.add done.isEmpty o names') := by
  have hsound := hemits.sound hinv.input
  rw [← List.flatMap_append] at hsound
  have hscope : ∀ v, v ∈ (a.add done.isEmpty o names').scope ↔ (v ∈ a.scope ∨ o.binding = some v) ∨
      o.path = some v := by
    intro v
    rw [Assembly.add, mem_addNew, mem_addNew]
  -- what is in scope was so before, or it is one of the two variables the block tells of
  refine ⟨⟨hsound.wellScoped, hsound.taken, ?_, nodup_addNew (nodup_addNew hinv.input.distinct _) _,
    ?_, by simp⟩, ?_, ?_, ?_⟩
  · intro v hv
    rcases (hscope v).mp hv with (hv | hv) | hv
    · exact hsound.scope v hv
    · exact hsound.binding v hv
    · exact hsound.path v hv
  · exact fun v hv => (hscope v).mpr (.inl (.inr hv))
  · intro v hv
    rw [Assembly.add, mem_addNew] at hv
    rw [hscope]
    refine hv.imp_left fun hv => ?_
    split at hv
    · exact (mem_addNew.mp hv).imp_left (hinv.shown v)
    · exact .inl (hinv.shown v hv)
  · refine nodup_addNew ?_ _
    split
    · exact nodup_addNew hinv.distinct _
    · exact hinv.distinct
  · intro vs
    rw [Assembly.add, List.flatMap_append, List.mem_append, not_or]
    exact ⟨hinv.unfinished vs, hemits.result_not_mem vs⟩

theorem emitChain_tracks {chain : List Block} {a : Assembly}
    (h : (emitChain chain).outcome = .ok a) : Tracks chain a :=
  emitChain_invariant Tracks tracks_empty (fun hinv _ hemits => hinv.add hemits) h

/-! ## 6. A query -/

/-- What a query does with variables if none of them is used out of its scope, joined or hidden by
accident, forgotten too early or listed twice. -/
structure Scoped (steps : List ScopeStep) : Prop where
  /-- Conditions, lists and the sources of patterns mention what is in scope. -/
  mentioned : ∀ before s rest, steps = before ++ s :: rest → ∀ v ∈ s.mentioned,
    v ∈ scopeAfter before
  /-- A pattern introduces variables that are new to the query. -/
  introduced : ∀ before s rest, steps = before ++ s :: rest →
    s.introduced.Nodup ∧ ∀ v ∈ s.introduced, v ∉ introducedBy before
  /-- A WITH lists variables once each, and all that were introduced before it and are mentioned
  after it. -/
  carried : ∀ before vs rest, steps = before ++ .carry vs :: rest →
    vs.Nodup ∧ ∀ v ∈ introducedBy before, v ∈ rest.flatMap ScopeStep.mentioned → v ∈ vs
  /-- The query returns something, and only at its end. -/
  returned : ∃ body vs, steps = body ++ [.result vs] ∧ (∀ ws, .result ws ∉ body) ∧ vs ≠ [] ∧
    vs.Nodup ∧ ∀ v ∈ vs, v ∈ scopeAfter body

/-- What is returned was shown, or is the current variable. -/
theorem Tracks.returned {done : List Block} {a : Assembly} (h : Tracks done a) :
    a.returned.Nodup ∧ ∀ v ∈ a.returned, v ∈ scopeAfter (a.clauses.flatMap Clause.scopeSteps) := by
  unfold Assembly.returned
  split
  · refine ⟨by cases a.binding <;> simp, fun v hv => ?_⟩
    exact h.input.scope v (h.input.binding v (Option.mem_toList.mp hv))
  · exact ⟨h.distinct, fun v hv => h.input.scope v (h.shown v hv)⟩

theorem Assembly.scopeSteps_query (a : Assembly) :
    (a.clauses ++ .returnDistinct a.returned :: a.capClauses).flatMap Clause.scopeSteps =
      a.clauses.flatMap Clause.scopeSteps ++ [.result a.returned] := by
  unfold capClauses
  cases a.cap <;> simp [Clause.scopeSteps]

theorem scoped_of_wellScoped {steps : List ScopeStep} (h : WellScoped steps)
    (hreturned : ∃ body vs, steps = body ++ [.result vs] ∧ (∀ ws, .result ws ∉ body) ∧ vs ≠ []) :
    Scoped steps := by
  refine ⟨fun before s rest heq => (h before s rest heq).inScope, fun before s rest heq =>
    ?_, fun before vs rest heq => ?_, ?_⟩
  · exact ⟨(h before s rest heq).distinct, (h before s rest heq).fresh⟩
  · refine ⟨(h before _ rest heq).listed vs (.inl rfl), fun v hv hlater => ?_⟩
    obtain ⟨s, hs, hmentioned⟩ := List.mem_flatMap.mp hlater
    obtain ⟨between, rest', rfl⟩ := List.append_of_mem hs
    have hsplit : steps = (before ++ .carry vs :: between) ++ s :: rest' := by simp [heq]
    have hscope := (h _ s rest' hsplit).inScope v hmentioned
    rw [hsplit] at h
    exact h.init.mem_carried hv hscope
  · obtain ⟨body, vs, heq, honly, hne⟩ := hreturned
    have hresult := h body _ [] heq
    exact ⟨body, vs, heq, honly, hne, hresult.listed vs (.inr rfl), hresult.inScope⟩

/-- The clauses of a query are scoped. -/
theorem Tracks.scoped {done : List Block} {a : Assembly} (h : Tracks done a)
    (hreturned : a.returned ≠ []) :
    Scoped ((a.clauses ++ .returnDistinct a.returned :: a.capClauses).flatMap
      Clause.scopeSteps) := by
  obtain ⟨hdistinct, hscope⟩ := h.returned
  refine scoped_of_wellScoped ?_ ⟨_, _, a.scopeSteps_query, h.unfinished, hreturned⟩
  rw [a.scopeSteps_query]
  exact h.input.wellScoped.concat (.result hscope hdistinct)

end CypherBlocks
