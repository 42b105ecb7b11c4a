/-!
# Wiring

Nodes with the targets of the edges that leave them, in the order in which the edges were added.  A
target need not be a node.
-/

namespace CypherBlocks

structure Wiring where
  nodes : List (String × List String)
  deriving Repr, DecidableEq

namespace Wiring

def empty : Wiring := ⟨[]⟩

def has (w : Wiring) (id : String) : Bool := (w.nodes.lookup id).isSome

/-- The targets of the edges that leave a node. -/
def targets (w : Wiring) (id : String) : List String := (w.nodes.lookup id).getD []

/-- Adds a node without edges unless it is there already. -/
def addNode (w : Wiring) (id : String) : Wiring :=
  if w.has id then w else ⟨w.nodes ++ [(id, [])]⟩

/-- Adds an edge; its source has to be a node. -/
def addEdge? (w : Wiring) (source target : String) : Option Wiring :=
  if w.has source then
    some ⟨w.nodes.map fun (id, ts) => if id = source then (id, ts ++ [target]) else (id, ts)⟩
  else none

/-- The target of the first edge that leaves a node. -/
def next? (w : Wiring) (id : String) : Option String := (w.targets id).head?

def outDegree (w : Wiring) (id : String) : Nat := (w.targets id).length

/-- What is said about an edge whose source is no node. -/
def unknownSourceMessage (source : String) : String := s!"source node not found: {source}"

end Wiring

end CypherBlocks
