import CypherBlocks.Chain.Resolve
import CypherBlocks.Emit

/-!
# Compiling a graph

The blocks of the chain contribute their clauses in order; a single RETURN over the variables to
show and, if there was a Result Limit, a LIMIT come last.  The first error ends the compilation, and
then there is no text.
-/

namespace CypherBlocks

open Cypher (Clause Names)

structure Result where
  text : String
  errors : List String
  warnings : List String
  deriving Repr, DecidableEq

def Result.ok (r : Result) : Bool := r.errors.isEmpty

/-- A query under construction. -/
structure Assembly where
  clauses : List Clause
  /-- The variables to return: that of the first block, and all paths. -/
  shown : List String
  /-- All variables so far. -/
  scope : List String
  cap : Option Int
  binding : Option String
  names : Names
  deriving Repr, DecidableEq

/-- Adds a variable unless it is there. -/
def addNew (names : List String) (name : Option String) : List String :=
  match name with
  | some v => if v ∈ names then names else names ++ [v]
  | none => names

namespace Assembly

def empty : Assembly := ⟨[], [], [], none, none, Names.fresh⟩

/-- Takes over what a block contributes. -/
def add (a : Assembly) (first : Bool) (o : Output) (names : Names) : Assembly where
  clauses := a.clauses ++ o.clauses
  shown := addNew (if first then addNew a.shown o.binding else a.shown) o.path
  scope := addNew (addNew a.scope o.binding) o.path
  cap := o.cap.or a.cap
  binding := o.binding
  names := names

/-- The variables to return; without any, the current one. -/
def returned (a : Assembly) : List String := if a.shown.isEmpty then a.binding.toList else a.shown

def nothingToReturn : Diagnosis :=
  ⟨.structural, "", "Nothing to return: the chain contains no block that matches entities."⟩

/-- The whole query. -/
def finish (a : Assembly) : Except Diagnosis (List Clause) :=
  match a.returned with
  | [] => .error nothingToReturn
  | vs =>
    let limit := match a.cap with
      | some n => [Clause.limit n]
      | none => []
    .ok (a.clauses ++ .returnDistinct vs :: limit)

end Assembly

/-- What blocks contributed before the first that failed, and the assembly or the failure. -/
structure Emission where
  outputs : List (Block × Output)
  outcome : Except Diagnosis Assembly

/-- Emits the blocks of a chain from some point on. -/
def emitFrom (first : Bool) (a : Assembly) : List Block → Emission
  | [] => ⟨[], .ok a⟩
  | b :: rest =>
    match emit b ⟨a.binding, first, a.scope⟩ a.names with
    | .error d => ⟨[], .error d⟩
    | .ok (o, names) =>
      let more := emitFrom false (a.add first o names) rest
      ⟨(b, o) :: more.outputs, more.outcome⟩

def emitChain (chain : List Block) : Emission := emitFrom true Assembly.empty chain

/-- The query of a chain. -/
def chainQuery (chain : List Block) : Except Diagnosis (List Clause) := do
  (← (emitChain chain).outcome).finish

/-- The query of a graph. -/
def query (g : Graph) : Except Diagnosis (List Clause) :=
  match Chain.resolve g with
  | .error e => .error e.diagnosis
  | .ok r => chainQuery r.chain

/-- The warnings about a graph; one without a chain has none. -/
def compileWarnings (g : Graph) : List String :=
  match Chain.resolve g with
  | .error _ => []
  | .ok r => r.warnings

def compile (g : Graph) : Result :=
  match query g with
  | .ok clauses => ⟨Cypher.linesText clauses, [], compileWarnings g⟩
  | .error d => ⟨"", [d.message], compileWarnings g⟩

/-! ## Log -/

def emittedRecord (b : Block) (o : Output) : Log.Record :=
  Log.debug "Block emitted."
    [("block_id", .text b.id), ("kind", .text b.kindTag), ("binding", .text (o.binding.getD "")),
     ("path", .text (o.path.getD ""))]

def emissionLog (g : Graph) : List Log.Record :=
  match Chain.resolve g with
  | .error _ => []
  | .ok r => (emitChain r.chain).outputs.map fun (b, o) => emittedRecord b o

def compileLog (g : Graph) : List Log.Record :=
  let r := compile g
  let started := Log.debug "Compilation started."
    [("blocks", .whole g.blocks.length), ("connections", .whole g.connections.length)]
  let failed := match query g with
    | .ok _ => []
    | .error d =>
      [Log.debug "Compilation failed." [("class", .text d.errorClass.name),
        ("error", .text d.message)]]
  let finished :=
    Log.debug "Compilation finished." [("ok", .bool r.ok), ("warnings", .whole r.warnings.length)]
  started :: Chain.resolveLog g ++ emissionLog g ++ failed ++ [finished]

end CypherBlocks
