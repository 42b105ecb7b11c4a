import CypherBlocks.Graph.Params
import CypherBlocks.Text.Blank

/-!
# Block graphs

A graph is what an author draws: blocks with parameters, and connections from block to block by id.
Nothing is checked here; ids may repeat and connections may lead nowhere.
-/

namespace CypherBlocks

/-- A block of the pipeline. One without parameters has no kind either. -/
structure Block where
  id : String
  label : String
  params : Option Params
  deriving Repr, DecidableEq

structure Connection where
  source : String
  target : String
  deriving Repr, DecidableEq

structure Graph where
  blocks : List Block
  connections : List Connection
  deriving Repr, DecidableEq

namespace Block

def kind? (b : Block) : Option Kind := b.params.map (·.kind)

def kindTag (b : Block) : String :=
  match b.kind? with
  | some kind => kind.tag
  | none => ""

/-- The name of a block in messages: its label, or that of its kind if the label is blank. -/
def displayLabel (b : Block) : String :=
  let label := Text.trim b.label
  if label.isEmpty then Kind.displayNameOf b.kindTag else label

def isOfKind (kind : Kind) (b : Block) : Bool := b.kind? = some kind

end Block

namespace Graph

def empty : Graph := ⟨[], []⟩

/-- The blocks whose kind has the given tag, in order; the empty tag is that of blocks without a
kind. -/
def blocksOfKind (g : Graph) (tag : String) : List Block := g.blocks.filter (·.kindTag = tag)

def append (g h : Graph) : Graph := ⟨g.blocks ++ h.blocks, g.connections ++ h.connections⟩

/-- The first id that an earlier block already has. -/
def duplicateFrom? (seen : List String) : List Block → Option String
  | [] => none
  | b :: rest => if b.id ∈ seen then some b.id else duplicateFrom? (b.id :: seen) rest

def duplicateId? (g : Graph) : Option String := duplicateFrom? [] g.blocks

end Graph

/-! ## Edits -/

/-- A change to one place of a graph. -/
inductive Edit where
  | label (block : Nat) (value : String)
  | source (connection : Nat) (value : String)
  | element (block : Nat) (argument : String) (position : Nat) (value : String)
  deriving Repr

/-- Sets one element of a list argument. -/
def Params.setElement (p : Params) (name : String) (i : Nat) (value : String) : Params :=
  match p.arguments.lookup name with
  | some (.texts ss) => p.set name (.texts (ss.set i value))
  | _ => p

def Graph.edit (g : Graph) : Edit → Graph
  | .label i value => { g with blocks := g.blocks.modify i fun b => { b with label := value } }
  | .source i value =>
    { g with connections := g.connections.modify i fun c => { c with source := value } }
  | .element i name j value =>
    { g with blocks :=
      g.blocks.modify i fun b => { b with params := b.params.map (·.setElement name j value) } }

end CypherBlocks
