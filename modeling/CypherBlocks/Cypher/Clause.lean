import CypherBlocks.Cypher.Condition

/-!
# Clauses

A query is a list of clauses, one per line.
-/

namespace CypherBlocks.Cypher

inductive Arrow where
  | undirected | outgoing | incoming
  deriving Repr, DecidableEq

/-- The pattern of a relationship between two variables. -/
def relationship (source body target : String) : Arrow → String
  | .undirected => s!"({source})-[{body}]-({target})"
  | .outgoing => s!"({source})-[{body}]->({target})"
  | .incoming => s!"({source})<-[{body}]-({target})"

inductive Clause where
  | matchNode (node : String)
  | matchId (node id : String)
  | matchWhere (node : String) (condition : Comparison)
  /-- Relationships of some types, from one up to `depth` of them in a row. -/
  | matchPath (path source : String) (types : List String) (depth : Int) (arrow : Arrow)
      (target : String)
  | matchShortest (path source : String) (hops : Int) (target : String)
  | filter (conditions : List (List Comparison))
  | carry (names : List String) (cap : Option Int)
  | note (s : String)
  | returnDistinct (names : List String)
  | limit (count : Int)
  deriving Repr, DecidableEq

namespace Clause

/-- The fewest relationships of a path. -/
def fewestHops : Int := 1

def text : Clause → String
  | .matchNode v => s!"MATCH ({v})"
  | .matchId v id => s!"MATCH ({v} \x7bid: {quote id}\x7d)"
  | .matchWhere v c => s!"MATCH ({v}) WHERE {c.text}"
  | .matchPath path source types depth arrow target =>
    let body := s!"{relationshipTypes types}*{fewestHops}..{depth}"
    s!"MATCH {path} = {relationship source body target arrow}"
  | .matchShortest path source hops target =>
    let body := s!"*..{hops}"
    s!"MATCH {path} = shortestPath({relationship source body target .undirected})"
  | .filter conditions => s!"WHERE {conjunctionText conditions}"
  | .carry names cap =>
    let kept := "WITH " ++ String.intercalate ", " names
    match cap with
    | some n => s!"{kept} LIMIT {n}"
    | none => kept
  | .note s => comment s
  | .returnDistinct names => "RETURN DISTINCT " ++ String.intercalate ", " names
  | .limit n => s!"LIMIT {n}"

end Clause

/-- Clauses as text, one per line. -/
def linesText (clauses : List Clause) : String := String.intercalate "\n" (clauses.map Clause.text)

end CypherBlocks.Cypher
