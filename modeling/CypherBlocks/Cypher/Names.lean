/-!
# Variable names

Variables are numbered from one by a single counter: entities are `n1`, `n2`, …, targets of a path
`t1`, `t2`, … and paths `p1`, `p2`, …. The first entity that is selected by its id is just `n`.
-/

namespace CypherBlocks.Cypher

/-- How many numbers are taken. -/
structure Names where
  count : Nat
  deriving Repr, DecidableEq

namespace Names

def fresh : Names := ⟨0⟩

/-- The name of an entity selected first. -/
def canonical : String := "n"

/-- The next number. -/
def number (names : Names) : Nat := names.count + 1

def advance (names : Names) : Names := ⟨names.count + 1⟩

def entity (names : Names) : String := s!"n{names.number}"

def path (names : Names) : String := s!"p{names.number}"

def target (names : Names) : String := s!"t{names.number}"

end Names

/-- What can be asked for at once: an entity alone, or an entity or a target with the path that
leads there. -/
inductive NameRequest where
  | entity
  | pair
  | target
  deriving Repr, DecidableEq

namespace Names

/-- The names with the next number that a request is for. -/
def chosen (names : Names) : NameRequest → List String
  | .entity => [names.entity]
  | .pair => [names.entity, names.path]
  | .target => [names.target, names.path]

/-- Meets a request; the number is taken, however many names have it. -/
def ask (names : Names) (r : NameRequest) : List String × Names := (names.chosen r, names.advance)

/-- Meets one request after another. -/
def askAll (names : Names) : List NameRequest → List (List String) × Names
  | [] => ([], names)
  | r :: rest =>
    let (given, names) := names.ask r
    let (later, names) := names.askAll rest
    (given :: later, names)

end Names

end CypherBlocks.Cypher
