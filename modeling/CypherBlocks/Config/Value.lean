import CypherBlocks.Number.Binary

/-!
# Values and their types

What an expression evaluates to.  A value is known, null or unknown; the last two still have a type,
which is `dynamic` if nothing is known about it.  Maps and objects keep their entries ordered by
key.
-/

namespace CypherBlocks.Config

inductive Ty where
  | dynamic
  | bool
  | number
  | text
  | list (element : Ty)
  | map (element : Ty)
  | tuple (elements : List Ty)
  | object (attributes : List (String × Ty))
  deriving Repr, Inhabited

namespace Ty

mutual

/-- Whether two types are one. -/
def same : Ty → Ty → Bool
  | .dynamic, .dynamic => true
  | .bool, .bool => true
  | .number, .number => true
  | .text, .text => true
  | .list a, .list b => same a b
  | .map a, .map b => same a b
  | .tuple as, .tuple bs => sameAll as bs
  | .object as, .object bs => sameAttributes as bs
  | _, _ => false

def sameAll : List Ty → List Ty → Bool
  | [], [] => true
  | a :: as, b :: bs => same a b && sameAll as bs
  | _, _ => false

def sameAttributes : List (String × Ty) → List (String × Ty) → Bool
  | [], [] => true
  | (m, a) :: as, (n, b) :: bs => m == n && same a b && sameAttributes as bs
  | _, _ => false

end

instance : BEq Ty := ⟨same⟩

/-- The name of a type in messages. -/
def name : Ty → String
  | .dynamic => "dynamic"
  | .bool => "bool"
  | .number => "number"
  | .text => "string"
  | .list e => s!"list of {e.name}"
  | .map e => s!"map of {e.name}"
  | .tuple _ => "tuple"
  | .object _ => "object"

def isSequence : Ty → Bool
  | .list _ | .tuple _ => true
  | _ => false

end Ty

inductive Value where
  | unknown (ty : Ty)
  | null (ty : Ty)
  | bool (b : Bool)
  | number (n : Binary)
  | text (s : String)
  | list (element : Ty) (items : List Value)
  | map (element : Ty) (entries : List (String × Value))
  | tuple (items : List Value)
  | object (attributes : List (String × Value))
  deriving Repr, Inhabited

namespace Value

mutual

def ty : Value → Ty
  | .unknown t => t
  | .null t => t
  | .bool _ => .bool
  | .number _ => .number
  | .text _ => .text
  | .list e _ => .list e
  | .map e _ => .map e
  | .tuple items => .tuple (tys items)
  | .object attributes => .object (attributeTys attributes)

def tys : List Value → List Ty
  | [] => []
  | v :: rest => v.ty :: tys rest

def attributeTys : List (String × Value) → List (String × Ty)
  | [] => []
  | (name, v) :: rest => (name, v.ty) :: attributeTys rest

end

def isNull : Value → Bool
  | .null _ => true
  | _ => false

def isKnown : Value → Bool
  | .unknown _ => false
  | _ => true

mutual

/-- Whether no part of a value is unknown. -/
def isWhollyKnown : Value → Bool
  | .unknown _ => false
  | .list _ items => allWhollyKnown items
  | .tuple items => allWhollyKnown items
  | .map _ entries => allEntriesWhollyKnown entries
  | .object attributes => allEntriesWhollyKnown attributes
  | _ => true

def allWhollyKnown : List Value → Bool
  | [] => true
  | v :: rest => v.isWhollyKnown && allWhollyKnown rest

def allEntriesWhollyKnown : List (String × Value) → Bool
  | [] => true
  | (_, v) :: rest => v.isWhollyKnown && allEntriesWhollyKnown rest

end

/-- Whether a null or an unknown of no known type. -/
def isDynamic (v : Value) : Bool := v.ty == .dynamic

end Value

/-- Sets a key of an ordered list of entries. -/
def setEntry {α : Type} (key : String) (a : α) : List (String × α) → List (String × α)
  | [] => [(key, a)]
  | (k, b) :: rest =>
    if key = k then (key, a) :: rest
    else if key < k then (key, a) :: (k, b) :: rest
    else (k, b) :: setEntry key a rest

end CypherBlocks.Config
