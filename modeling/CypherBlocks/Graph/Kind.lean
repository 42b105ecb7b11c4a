import CypherBlocks.Text.Quoted

/-!
# Kinds of blocks

The closed set of block kinds, with the tag that names a kind in files and the name that a reader
sees.
-/

namespace CypherBlocks

inductive Kind where
  | start | finish
  | textSearch | selectById | neighborhood | shortestPath
  | ontologyFilter | nodeFilter | edgeFilter
  | andGate | orGate | notGate
  | resultLimit
  deriving Repr, DecidableEq

namespace Kind

/-- All kinds in their usual order. -/
def all : List Kind :=
  [.start, .finish, .textSearch, .selectById, .neighborhood, .shortestPath,
   .ontologyFilter, .nodeFilter, .edgeFilter, .andGate, .orGate, .notGate, .resultLimit]

def tag : Kind → String
  | .start => "start"
  | .finish => "end"
  | .textSearch => "text_search"
  | .selectById => "select_by_id"
  | .neighborhood => "neighborhood"
  | .shortestPath => "shortest_path"
  | .ontologyFilter => "ontology_filter"
  | .nodeFilter => "node_filter"
  | .edgeFilter => "edge_filter"
  | .andGate => "and"
  | .orGate => "or"
  | .notGate => "not"
  | .resultLimit => "result_limit"

def displayName : Kind → String
  | .start => "Start"
  | .finish => "End"
  | .textSearch => "Text Search"
  | .selectById => "Select by ID"
  | .neighborhood => "Neighborhood"
  | .shortestPath => "Shortest Path"
  | .ontologyFilter => "Ontology Filter"
  | .nodeFilter => "Node Filter"
  | .edgeFilter => "Edge Filter"
  | .andGate => "AND"
  | .orGate => "OR"
  | .notGate => "NOT"
  | .resultLimit => "Result Limit"

/-- The kind with the given tag. -/
def ofTag? (tag : String) : Option Kind := all.find? (·.tag = tag)

/-- The name that stands for a tag; an unknown tag stands for itself. -/
def displayNameOf (tag : String) : String :=
  match ofTag? tag with
  | some kind => kind.displayName
  | none => tag

/-- Whether blocks of the kind only mark where the pipeline begins or ends. -/
def isFlowMarker : Kind → Bool
  | .start | .finish => true
  | _ => false

/-- What is said about a tag that names no kind. -/
def unknownMessage (tag : String) : String :=
  s!"unknown block kind {Text.quoted tag}; expected one of " ++ String.intercalate ", "
    (all.map Kind.tag)

end Kind

end CypherBlocks
