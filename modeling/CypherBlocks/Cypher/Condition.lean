import CypherBlocks.Cypher.Literal
import CypherBlocks.Number.Double

/-!
# Conditions

A condition is a conjunction of alternatives, each of which compares one property.
-/

namespace CypherBlocks.Cypher

/-- The characters that make a term a regular expression. -/
def metaCharacters : List Char :=
  ['.', '*', '+', '?', '^', '$', '(', ')', '[', ']', '{', '}', '|', '\\']

def isPattern (term : String) : Bool := term.toList.any (· ∈ metaCharacters)

/-- A property of a variable. -/
def property (node name : String) : String := s!"{node}.{name}"

inductive Comparison where
  | equal (property value : String)
  | resembles (property pattern : String)
  /-- The property contains a text, whatever the case of its letters. -/
  | contains (property value : String)
  | atLeast (property : String) (least : Double)
  deriving Repr, DecidableEq

namespace Comparison

/-- Compares a property with a term, as a regular expression if the term looks like one. -/
def ofTerm (property term : String) : Comparison :=
  if isPattern term then .resembles property term else .equal property term

def text : Comparison → String
  | .equal p v => s!"{p} = {quote v}"
  | .resembles p v => s!"{p} =~ {quote v}"
  | .contains p v => s!"toLower({p}) CONTAINS {quote (Text.lower v)}"
  | .atLeast p x => s!"{p} >= {x.text}"

end Comparison

/-- One comparison for each usable term. -/
def comparisons (property : String) (terms : List String) : List Comparison :=
  (usable terms).map (Comparison.ofTerm property)

/-- Alternatives as text; several stand in parentheses. -/
def alternativesText : List Comparison → String
  | [] => ""
  | [c] => c.text
  | cs => "(" ++ String.intercalate " OR " (cs.map Comparison.text) ++ ")"

/-- All of the alternatives as text. -/
def conjunctionText (conditions : List (List Comparison)) : String :=
  String.intercalate " AND " (conditions.map alternativesText)

end CypherBlocks.Cypher
