import CypherBlocks.Cypher.Clause
import CypherBlocks.Cypher.Names
import CypherBlocks.Diagnosis
import CypherBlocks.Graph.Basic

/-!
# What a block contributes to a query

Each block of a chain takes the variable that is current before it and gives clauses, the variable
that is current after it, a variable for a path if it finds one, and a cap on the rows if it is a
Result Limit.
-/

namespace CypherBlocks

open Cypher (Clause Comparison Names)

/-- Why a block contributes nothing. -/
inductive EmitError where
  | noParameters
  | notFirst
  | queryRequired
  | identifierRequired
  | targetIdentifierRequired
  | targetQueryRequired
  | depthOutOfRange (depth : Int)
  | hopsOutOfRange (hops : Int)
  | unknownDirection (direction : String)
  | unknownMode (mode : String)
  | statusFilters
  | notFinite
  | noConditions
  | countTooSmall (count : Int)
  deriving Repr, DecidableEq

def fewestHops : Int := Clause.fewestHops

def greatestDepth : Int := 5

def greatestHops : Int := 15

/-- The endpoint that resolves statuses to relationship types when a query is made. -/
def traverseEndpoint : String := "POST /api/graph/traverse"

namespace EmitError

def text : EmitError → String
  | .noParameters => "unsupported block type <nil>"
  | .notFirst => "cannot be the first block; connect a block that matches entities before it"
  | .queryRequired => "query is required"
  | .identifierRequired => "identifier is required"
  | .targetIdentifierRequired => "target identifier is required"
  | .targetQueryRequired => "target query is required"
  | .depthOutOfRange depth =>
    s!"depth must be between {fewestHops} and {greatestDepth}, got {depth}"
  | .hopsOutOfRange hops => s!"max hops must be between {fewestHops} and {greatestHops}, got {hops}"
  | .unknownDirection direction => s!"direction {Text.quoted direction} is not one of out, in, both"
  | .unknownMode mode => s!"mode {Text.quoted mode} is not one of id, text"
  | .statusFilters =>
    "epistemic status filters need relationship-type resolution, which is unavailable at " ++
      s!"compile time; call the graph traversal API ({traverseEndpoint}) instead"
  | .notFinite => "min confidence must be a finite number"
  | .noConditions => "at least one condition is required"
  | .countTooSmall count => s!"count must be at least 1, got {count}"

def errorClass : EmitError → ErrorClass
  | .statusFilters => .capability
  | _ => .validation

def diagnosis (block : String) (e : EmitError) : Diagnosis := ⟨e.errorClass, block, e.text⟩

end EmitError

/-- What a block finds before it. -/
structure EmitInput where
  /-- The current variable, if anything has been matched. -/
  binding : Option String
  /-- Whether the block is the first of its chain. -/
  first : Bool
  /-- All variables in scope, in the order in which they came into it. -/
  scope : List String
  deriving Repr, DecidableEq

structure Output where
  clauses : List Clause
  binding : Option String
  path : Option String
  cap : Option Int
  deriving Repr, DecidableEq

namespace Output

/-- A block that leaves the current variable as it is. -/
def unchanged (input : EmitInput) (clauses : List Clause) : Output :=
  ⟨clauses, input.binding, none, none⟩

def text (o : Output) : String := Cypher.linesText o.clauses

end Output

/-- Emitters take numbers for their variables from one counter, and they may fail.  A number that is
taken stays taken. -/
abbrev Emitter := ExceptT EmitError (StateM Names)

/-- Takes the next number, and gives the names that have it. -/
def takeNumber : Emitter Names := do
  let names ← get
  set names.advance
  return names

/-- Variables to carry on: those in scope and one more. -/
def carried (scope : List String) (name : String) : List String :=
  if name ∈ scope then scope else scope ++ [name]

/-! ## Blocks that match entities -/

/-- How many entities a search keeps if it does not say. -/
def defaultSearchCap : Int := 1

def emitTextSearch (p : TextSearch) (input : EmitInput) : Emitter Output :=
  if Text.isBlank p.query then throw .queryRequired
  else do
    let cap := if p.limit < 1 then defaultSearchCap else p.limit
    let v := (← takeNumber).entity
    let clauses : List Clause :=
      [.matchNode v, .filter [[.contains (Cypher.property v "label") p.query]],
        .carry (carried input.scope v) (some cap)]
    return ⟨clauses, some v, none, none⟩

def emitSelectById (id : String) (input : EmitInput) : Emitter Output :=
  if Text.isBlank id then throw .identifierRequired
  else if input.first then return ⟨[.matchId Names.canonical id], some Names.canonical, none, none⟩
  else do
    let v := (← takeNumber).entity
    return ⟨[.matchId v id], some v, none, none⟩

/-! ## Blocks that follow relationships -/

def arrowOf? (direction : String) : Option Cypher.Arrow :=
  match direction with
  | "out" => some .outgoing
  | "in" => some .incoming
  | "both" => some .undirected
  | "" => some .undirected
  | _ => none

def emitNeighborhood (p : Neighborhood) (input : EmitInput) : Emitter Output :=
  match input.binding with
  | none => throw .notFirst
  | some source =>
    if p.depth < fewestHops || greatestDepth < p.depth then throw (.depthOutOfRange p.depth)
    else
      match arrowOf? p.direction with
      | none => throw (.unknownDirection p.direction)
      | some arrow =>
        let hasStatuses := !p.includeStatuses.isEmpty || !p.excludeStatuses.isEmpty
        if (Cypher.usable p.relationshipTypes).isEmpty && hasStatuses then throw .statusFilters
        else do
          let names ← takeNumber
          let clause := .matchPath names.path source p.relationshipTypes p.depth arrow names.entity
          return ⟨[clause], some names.entity, some names.path, none⟩

/-- How a path block finds its target, whatever the name of the target will be: by id unless it says
otherwise. -/
def targetTest (p : ShortestPath) : Except EmitError (String → Comparison) :=
  match p.mode with
  | "id" | "" =>
    if Text.isBlank p.targetId then .error .targetIdentifierRequired
    else .ok fun target => .equal (Cypher.property target "id") p.targetId
  | "text" =>
    if Text.isBlank p.targetQuery then .error .targetQueryRequired
    else .ok fun target => .contains (Cypher.property target "label") p.targetQuery
  | mode => .error (.unknownMode mode)

def emitShortestPath (p : ShortestPath) (input : EmitInput) : Emitter Output :=
  match input.binding with
  | none => throw .notFirst
  | some source =>
    match targetTest p with
    | .error e => throw e
    | .ok test =>
      if p.maxHops < fewestHops || greatestHops < p.maxHops then throw (.hopsOutOfRange p.maxHops)
      else do
        let names ← takeNumber
        let clauses : List Clause :=
          [.matchWhere names.target (test names.target),
            .matchShortest names.path source p.maxHops names.target]
        return ⟨clauses, some source, some names.path, none⟩

/-! ## Filters -/

/-- Keeps the rows that meet all conditions. -/
def filtered (input : EmitInput) (binding : String) (conditions : List (List Comparison)) :
    Output :=
  .unchanged input [.carry (carried input.scope binding) none, .filter conditions]

def emitOntologyFilter (types : List String) (input : EmitInput) : Except EmitError Output :=
  match input.binding with
  | none => .error .notFirst
  | some binding =>
    match Cypher.comparisons (Cypher.property binding "ontology_type") types with
    | [] => .error .noConditions
    | cs => .ok (filtered input binding [cs])

/-- The condition on the confidence of an entity, if there is one. -/
def confidenceConditions (binding : String) (least : Double) : List (List Comparison) :=
  if least.isPositive then [[.atLeast (Cypher.property binding "confidence") least]] else []

def labelConditions (binding : String) (labels : List String) : List (List Comparison) :=
  match Cypher.comparisons (Cypher.property binding "label") labels with
  | [] => []
  | cs => [cs]

def emitNodeFilter (p : NodeFilter) (input : EmitInput) : Except EmitError Output :=
  match input.binding with
  | none => .error .notFirst
  | some binding =>
    if !p.minConfidence.isFinite then .error .notFinite
    else
      match labelConditions binding p.labels ++ confidenceConditions binding p.minConfidence with
      | [] => .error .noConditions
      | conditions => .ok (filtered input binding conditions)

/-- An edge filter is only noted in the query. -/
def emitEdgeFilter (types : List String) (input : EmitInput) : Except EmitError Output :=
  match input.binding with
  | none => .error .notFirst
  | some binding =>
    match Cypher.usable types with
    | [] => .error .noConditions
    | names =>
      let listed := String.intercalate "|" (names.map Cypher.nameText)
      let note :=
        s!"Edge filter [{listed}] on {binding} is not supported yet; " ++
          "relationships pass through unfiltered"
      .ok (.unchanged input [.note note])

/-! ## Gates and limits -/

/-- A gate is only noted in the query. -/
def emitGate (kind : Kind) (operation : String) (input : EmitInput) : Output :=
  let subject := input.binding.getD "nothing"
  let note :=
    s!"{kind.displayName} gate: set {operation} is not supported yet; passing {subject} through"
  .unchanged input [.note note]

def emitResultLimit (count : Int) (input : EmitInput) : Except EmitError Output :=
  if count < 1 then .error (.countTooSmall count) else .ok ⟨[], input.binding, none, some count⟩

/-! ## All blocks -/

/-- What the parameters of a block contribute. -/
def emitParams (p : Params) (input : EmitInput) : Emitter Output :=
  match p with
  | .start | .finish => return .unchanged input []
  | .textSearch p => emitTextSearch p input
  | .selectById id => emitSelectById id input
  | .neighborhood p => emitNeighborhood p input
  | .shortestPath p => emitShortestPath p input
  | .ontologyFilter types => MonadExcept.ofExcept (emitOntologyFilter types input)
  | .nodeFilter p => MonadExcept.ofExcept (emitNodeFilter p input)
  | .edgeFilter types => MonadExcept.ofExcept (emitEdgeFilter types input)
  | .andGate => return emitGate .andGate "intersection" input
  | .orGate => return emitGate .orGate "union" input
  | .notGate => return emitGate .notGate "negation" input
  | .resultLimit count => MonadExcept.ofExcept (emitResultLimit count input)

def emitBlock (b : Block) (input : EmitInput) : Emitter Output :=
  match b.params with
  | none => throw .noParameters
  | some p => emitParams p input

/-- What a block contributes, with errors put down to it by name, and the counter after it. -/
def emitCounted (b : Block) (input : EmitInput) (names : Names) : Except Diagnosis Output × Names :=
  let (result, names) := (emitBlock b input).run.run names
  (result.mapError (·.diagnosis b.displayLabel), names)

/-- What a block contributes; a failure ends the emission, so that the counter after it does not
matter. -/
def emit (b : Block) (input : EmitInput) (names : Names) : Except Diagnosis (Output × Names) :=
  let (result, names) := emitCounted b input names
  result.map (·, names)

/-- Blocks that take their numbers from one counter, each with an input of its own; a failure does
not keep the others from being emitted. -/
def emitAll (names : Names) : List (Block × EmitInput) → List (Except Diagnosis Output) × Names
  | [] => ([], names)
  | (b, input) :: rest =>
    let (result, names) := emitCounted b input names
    let (results, names) := emitAll names rest
    (result :: results, names)

end CypherBlocks
