import CypherBlocks.Graph.Kind
import CypherBlocks.Number.Double

/-!
# Parameters of blocks

Each kind of block has its own parameters.  Files see them as named arguments of four types;
`arguments` and `set` translate between the two views.
-/

namespace CypherBlocks

structure TextSearch where
  query : String
  limit : Int
  deriving Repr, DecidableEq

structure Neighborhood where
  direction : String
  depth : Int
  relationshipTypes : List String
  includeStatuses : List String
  excludeStatuses : List String
  deriving Repr, DecidableEq

structure ShortestPath where
  mode : String
  targetId : String
  targetQuery : String
  maxHops : Int
  deriving Repr, DecidableEq

structure NodeFilter where
  labels : List String
  minConfidence : Double
  deriving Repr, DecidableEq

inductive Params where
  | start
  | finish
  | textSearch (p : TextSearch)
  | selectById (id : String)
  | neighborhood (p : Neighborhood)
  | shortestPath (p : ShortestPath)
  | ontologyFilter (types : List String)
  | nodeFilter (p : NodeFilter)
  | edgeFilter (relationshipTypes : List String)
  | andGate
  | orGate
  | notGate
  | resultLimit (count : Int)
  deriving Repr, DecidableEq

inductive ArgumentTy where
  | text | whole | real | texts
  deriving Repr, DecidableEq

inductive ArgumentValue where
  | text (s : String)
  | whole (n : Int)
  | real (x : Double)
  | texts (ss : List String)
  deriving Repr, DecidableEq

namespace ArgumentValue

def ty : ArgumentValue → ArgumentTy
  | .text _ => .text
  | .whole _ => .whole
  | .real _ => .real
  | .texts _ => .texts

/-- Whether an argument says no more than leaving it out. -/
def isZero : ArgumentValue → Bool
  | .text s => s.isEmpty
  | .whole n => n = 0
  | .real x => x.isZero
  | .texts ss => ss.isEmpty

end ArgumentValue

namespace Params

def kind : Params → Kind
  | .start => .start
  | .finish => .finish
  | .textSearch _ => .textSearch
  | .selectById _ => .selectById
  | .neighborhood _ => .neighborhood
  | .shortestPath _ => .shortestPath
  | .ontologyFilter _ => .ontologyFilter
  | .nodeFilter _ => .nodeFilter
  | .edgeFilter _ => .edgeFilter
  | .andGate => .andGate
  | .orGate => .orGate
  | .notGate => .notGate
  | .resultLimit _ => .resultLimit

/-- The parameters of a block whose file gives none. -/
def zero : Kind → Params
  | .start => .start
  | .finish => .finish
  | .textSearch => .textSearch ⟨"", 0⟩
  | .selectById => .selectById ""
  | .neighborhood => .neighborhood ⟨"", 0, [], [], []⟩
  | .shortestPath => .shortestPath ⟨"", "", "", 0⟩
  | .ontologyFilter => .ontologyFilter []
  | .nodeFilter => .nodeFilter ⟨[], Double.zero⟩
  | .edgeFilter => .edgeFilter []
  | .andGate => .andGate
  | .orGate => .orGate
  | .notGate => .notGate
  | .resultLimit => .resultLimit 0

/-- The parameters as named arguments, in the order in which they are written. -/
def arguments : Params → List (String × ArgumentValue)
  | .textSearch p => [("query", .text p.query), ("limit", .whole p.limit)]
  | .selectById id => [("id", .text id)]
  | .neighborhood p =>
    [("direction", .text p.direction), ("depth", .whole p.depth),
     ("relationship_types", .texts p.relationshipTypes),
     ("include_statuses", .texts p.includeStatuses), ("exclude_statuses", .texts p.excludeStatuses)]
  | .shortestPath p =>
    [("mode", .text p.mode), ("target_id", .text p.targetId), ("target_query", .text p.targetQuery),
     ("max_hops", .whole p.maxHops)]
  | .ontologyFilter types => [("types", .texts types)]
  | .nodeFilter p => [("labels", .texts p.labels), ("min_confidence", .real p.minConfidence)]
  | .edgeFilter types => [("relationship_types", .texts types)]
  | .resultLimit count => [("count", .whole count)]
  | .start | .finish | .andGate | .orGate | .notGate => []

/-- Sets one argument; a name that the kind does not have changes nothing. -/
def set (p : Params) (name : String) (v : ArgumentValue) : Params :=
  match p, name, v with
  | .textSearch p, "query", .text s => .textSearch { p with query := s }
  | .textSearch p, "limit", .whole n => .textSearch { p with limit := n }
  | .selectById _, "id", .text s => .selectById s
  | .neighborhood p, "direction", .text s => .neighborhood { p with direction := s }
  | .neighborhood p, "depth", .whole n => .neighborhood { p with depth := n }
  | .neighborhood p, "relationship_types", .texts ss =>
    .neighborhood { p with relationshipTypes := ss }
  | .neighborhood p, "include_statuses", .texts ss => .neighborhood { p with includeStatuses := ss }
  | .neighborhood p, "exclude_statuses", .texts ss => .neighborhood { p with excludeStatuses := ss }
  | .shortestPath p, "mode", .text s => .shortestPath { p with mode := s }
  | .shortestPath p, "target_id", .text s => .shortestPath { p with targetId := s }
  | .shortestPath p, "target_query", .text s => .shortestPath { p with targetQuery := s }
  | .shortestPath p, "max_hops", .whole n => .shortestPath { p with maxHops := n }
  | .ontologyFilter _, "types", .texts ss => .ontologyFilter ss
  | .nodeFilter p, "labels", .texts ss => .nodeFilter { p with labels := ss }
  | .nodeFilter p, "min_confidence", .real x => .nodeFilter { p with minConfidence := x }
  | .edgeFilter _, "relationship_types", .texts ss => .edgeFilter ss
  | .resultLimit _, "count", .whole n => .resultLimit n
  | p, _, _ => p

/-- The type of a named argument of the kind. -/
def argumentTy? (kind : Kind) (name : String) : Option ArgumentTy :=
  ((zero kind).arguments.lookup name).map (·.ty)

end Params

end CypherBlocks
