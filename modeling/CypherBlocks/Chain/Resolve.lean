import CypherBlocks.Chain.Wiring
import CypherBlocks.Diagnosis
import CypherBlocks.Graph.Basic
import CypherBlocks.Log.Record

/-!
# The chain of a graph

A pipeline runs from the Start block along the first connection of each block until a block has
none.  Its chain is what it passes, without the blocks that only mark its ends.
-/

namespace CypherBlocks.Chain

/-- Why a graph has no chain. -/
inductive ChainError where
  | noStart
  | severalStarts
  | cycle (id : String)
  | unknownTarget (id : String)
  deriving Repr, DecidableEq

namespace ChainError

def text : ChainError → String
  | .noStart => "No Start block found."
  | .severalStarts => "Multiple Start blocks found."
  | .cycle id => s!"Cycle detected at block {Text.quoted id}."
  | .unknownTarget id => s!"Connection target {Text.quoted id} does not exist."

def diagnosis (e : ChainError) : Diagnosis := ⟨.structural, "", e.text⟩

end ChainError

def missingEndWarning : String := "No End block found; the chain ends at the last connected block."

/-- The nodes and edges of a graph. Connections from an unknown block are left out. -/
def wiring (g : Graph) : Wiring :=
  let nodes := g.blocks.foldl (fun w b => w.addNode b.id) Wiring.empty
  g.connections.foldl (fun w c => (w.addEdge? c.source c.target).getD w) nodes

/-- The connections that no edge stands for. -/
def looseConnections (g : Graph) : List Connection :=
  g.connections.filter fun c => !g.blocks.any (·.id = c.source)

/-- The block that an id denotes: the last one that has it. -/
def blockWithId? (g : Graph) (id : String) : Option Block := g.blocks.reverse.find? (·.id = id)

/-- The blocks that a walk passes, and the reason if it goes wrong. -/
structure Walk where
  blocks : List Block
  error : Option ChainError
  deriving Repr, DecidableEq

/-- Walks on from a block. No id is passed twice, so the number of blocks bounds the walk. -/
def walkFrom (g : Graph) (w : Wiring) : Nat → List String → Block → Walk
  | 0, _, b => ⟨[], some (.cycle b.id)⟩
  | fuel + 1, passed, b =>
    if b.id ∈ passed then ⟨[], some (.cycle b.id)⟩
    else
      match w.next? b.id with
      | none => ⟨[b], none⟩
      | some id =>
        match blockWithId? g id with
        | none => ⟨[b], some (.unknownTarget id)⟩
        | some next =>
          let rest := walkFrom g w fuel (b.id :: passed) next
          ⟨b :: rest.blocks, rest.error⟩

/-- The walk through a graph from its only Start block. -/
def walk (g : Graph) : Walk :=
  match g.blocks.filter (·.isOfKind .start) with
  | [] => ⟨[], some .noStart⟩
  | [start] => walkFrom g (wiring g) (g.blocks.length + 1) [] start
  | _ => ⟨[], some .severalStarts⟩

def isFlowMarker (b : Block) : Bool := b.kind?.any (·.isFlowMarker)

def warnings (g : Graph) : List String :=
  if g.blocks.any (·.isOfKind .finish) then [] else [missingEndWarning]

structure Resolved where
  chain : List Block
  warnings : List String
  deriving Repr, DecidableEq

def resolve (g : Graph) : Except ChainError Resolved :=
  let walked := walk g
  match walked.error with
  | some e => .error e
  | none => .ok ⟨walked.blocks.filter (!isFlowMarker ·), warnings g⟩

/-! ## Log -/

def looseRecord (c : Connection) : Log.Record :=
  Log.debug "Ignoring connection from unknown block." [("source", .text c.source),
    ("target", .text c.target)]

/-- A block with several connections is worth a note. -/
def branchRecord? (w : Wiring) (b : Block) : Option Log.Record :=
  match w.targets b.id with
  | next :: _ :: _ =>
    some (Log.debug "Block has several outgoing connections; following the first."
      [("block_id", .text b.id), ("out_degree", .whole (w.outDegree b.id)), ("next", .text next)])
  | _ => none

def resolveLog (g : Graph) : List Log.Record :=
  let walked := walk g
  if walked.error = some .noStart || walked.error = some .severalStarts then []
  else
    let before :=
      (looseConnections g).map looseRecord ++ walked.blocks.filterMap (branchRecord? (wiring g))
    match resolve g with
    | .error _ => before
    | .ok r =>
      before ++ [Log.debug "Chain resolved." [("length", .whole r.chain.length),
        ("warnings", .whole r.warnings.length)]]

end CypherBlocks.Chain
