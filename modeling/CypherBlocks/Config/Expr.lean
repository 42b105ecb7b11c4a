import CypherBlocks.Config.Token
import CypherBlocks.Config.Value
import CypherBlocks.Text.Normal

/-!
# Expressions and bodies

What a configuration file says: a body of attributes and blocks, each attribute with an expression
still to be evaluated.
-/

namespace CypherBlocks.Config

inductive BinaryOp where
  | either | both | equal | notEqual | greater | greaterEqual | less | lessEqual
  | add | subtract | multiply | divide | remainder
  deriving Repr, DecidableEq

inductive UnaryOp where
  | negate | not
  deriving Repr, DecidableEq

/-- A value that is written out, or what stands in for one that is not. -/
inductive Literal where
  | unknown
  | null
  | bool (b : Bool)
  | number (n : Binary)
  | text (s : String)
  deriving Repr

/-- The value of a literal; text is normalised. -/
def Literal.value : Literal → Value
  | .unknown => .unknown .dynamic
  | .null => .null .dynamic
  | .bool b => .bool b
  | .number n => .number n
  | .text s => .text (Text.normalize s)

/-- A step into a value whose name or index is written out. -/
inductive Step where
  | named (name : String)
  | index (key : Literal)
  deriving Repr

inductive Expr where
  | literal (l : Literal)
  | template (parts : List Expr)
  /-- A template of a single interpolation: the value itself, not its text. -/
  | interpolation (e : Expr)
  /-- The texts of a tuple, one after the other. -/
  | join (e : Expr)
  | variable (name : String)
  /-- The element at hand in a splat. -/
  | item
  | call
  | steps (source : Expr) (steps : List Step)
  | index (source key : Expr)
  | splat (source each : Expr)
  | conditional (condition yes no : Expr)
  | binary (op : BinaryOp) (left right : Expr)
  | unary (op : UnaryOp) (e : Expr)
  | tuple (items : List Expr)
  | object (items : List (Expr × Expr))
  /-- A key that could be a name or a reference. -/
  | ambiguousKey
  | forTuple (key : Option String) (name : String) (source value condition : Expr)
  | forObject (key : Option String) (name : String) (source keyed value condition : Expr)
      (grouped : Bool)
  deriving Repr, Inhabited

structure Attribute where
  name : String
  expr : Expr
  range : Range
  deriving Repr

inductive Block where
  | mk (kind : String) (labels : List String) (attributes : List Attribute) (blocks : List Block)
  deriving Repr

/-- Attributes and blocks, each in the order of the file. -/
structure Body where
  attributes : List Attribute
  blocks : List Block
  deriving Repr

namespace Block

def kind : Block → String
  | .mk kind _ _ _ => kind

def labels : Block → List String
  | .mk _ labels _ _ => labels

def body : Block → Body
  | .mk _ _ attributes blocks => ⟨attributes, blocks⟩

end Block

end CypherBlocks.Config
