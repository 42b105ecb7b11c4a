import CypherBlocks.Config.Value

/-!
# Converting values

Numbers and truth values have a text, and a text may be that of a number or truth value; sequences
convert element by element. Whether a conversion exists is a matter of the types alone; only reading
a text can still fail.
-/

namespace CypherBlocks.Config

namespace Ty

mutual

/-- Whether values of the first type can be converted to the second. -/
def converts : Ty → Ty → Bool
  | _, .dynamic => true
  | .dynamic, _ => true
  | .bool, .bool | .bool, .text => true
  | .number, .number | .number, .text => true
  | .text, .bool | .text, .number | .text, .text => true
  | .list a, .list b => converts a b
  | .map a, .map b => converts a b
  | .tuple as, .list b => allConvert as b
  | .tuple as, .tuple bs => eachConverts as bs
  | .object as, .map b => attributesConvert as b
  | .object as, .object bs => bs.all (fun b => as.any (·.1 == b.1)) && attributesMatch as bs
  | .map _, .object _ => true
  | _, _ => false

def allConvert : List Ty → Ty → Bool
  | [], _ => true
  | a :: as, b => converts a b && allConvert as b

def eachConverts : List Ty → List Ty → Bool
  | [], [] => true
  | a :: as, b :: bs => converts a b && eachConverts as bs
  | _, _ => false

def attributesConvert : List (String × Ty) → Ty → Bool
  | [], _ => true
  | (_, a) :: as, b => converts a b && attributesConvert as b

def attributesMatch : List (String × Ty) → List (String × Ty) → Bool
  | [], _ => true
  | (name, a) :: as, bs =>
    (match bs.lookup name with
      | some b => converts a b
      | none => true) && attributesMatch as bs

end

/-- The first element of a tuple that has no conversion, from index `i` on. -/
def firstMisfit? (target : Ty) (i : Nat) : List Ty → Option (Nat × Ty)
  | [] => none
  | t :: rest => if converts t target then firstMisfit? target (i + 1) rest else some (i, t)

/-- Why no conversion exists from one type to another. -/
def mismatch (got want : Ty) : String :=
  match got, want with
  | .tuple _, .list .dynamic => "all list elements must have the same type"
  | .object _, .map .dynamic => "all map elements must have the same type"
  | .tuple ts, .list e =>
    match firstMisfit? e 0 ts with
    | some (i, t) => s!"element {i}: {e.name} required, but have {t.name}"
    | none => s!"all elements must be {e.name}"
  | .object _, .list _ | .tuple _, .map _ => s!"{want.name} required"
  | .list _, .list e => s!"incorrect list element type: {e.name} required"
  | .map _, .map e => s!"incorrect map element type: {e.name} required"
  | _, _ => s!"{want.name} required, but have {got.name}"

end Ty

inductive ConvertError where
  | mismatch (got want : Ty)
  | notNumber
  | notBool
  deriving Repr

def ConvertError.message : ConvertError → String
  | .mismatch got want => got.mismatch want
  | .notNumber => "a number is required"
  | .notBool => "a bool is required"

namespace Value

def boolText (b : Bool) : String := if b then "true" else "false"

def textBool? (s : String) : Option Bool :=
  if s = "true" || s = "1" then some true
  else if s = "false" || s = "0" then some false
  else none

mutual

/-- Converts a value whose type has a conversion to the target. -/
def convertTo : Value → Ty → Except ConvertError Value
  | v, .dynamic => .ok v
  | .null _, t => .ok (.null t)
  | .unknown _, t => .ok (.unknown t)
  | .bool b, .bool => .ok (.bool b)
  | .bool b, .text => .ok (.text (boolText b))
  | .number n, .number => .ok (.number n)
  | .number n, .text => .ok (.text n.text)
  | .text s, .text => .ok (.text s)
  | .text s, .number =>
    match Binary.parse? s with
    | some n => .ok (.number n)
    | none => .error .notNumber
  | .text s, .bool =>
    match textBool? s with
    | some b => .ok (.bool b)
    | none => .error .notBool
  | .list _ items, .list e => do return .list e (← convertAll items e)
  | .tuple items, .list e => do return .list e (← convertAll items e)
  | .tuple items, .tuple ts => do return .tuple (← convertEach items ts)
  | .map _ entries, .map e => do return .map e (← convertEntries entries e)
  | .object attributes, .map e => do return .map e (← convertEntries attributes e)
  | .object attributes, .object ts => do return .object (← convertMatching attributes ts)
  | .map _ entries, .object ts => do return .object (← convertMatching entries ts)
  | v, t => .error (.mismatch v.ty t)

def convertAll : List Value → Ty → Except ConvertError (List Value)
  | [], _ => .ok []
  | v :: rest, t => do return (← convertTo v t) :: (← convertAll rest t)

def convertEach : List Value → List Ty → Except ConvertError (List Value)
  | v :: rest, t :: ts => do return (← convertTo v t) :: (← convertEach rest ts)
  | _, _ => .ok []

def convertEntries : List (String × Value) → Ty → Except ConvertError (List (String × Value))
  | [], _ => .ok []
  | (name, v) :: rest, t => do return (name, ← convertTo v t) :: (← convertEntries rest t)

/-- The attributes that the target has. -/
def convertMatching :
    List (String × Value) → List (String × Ty) → Except ConvertError (List (String × Value))
  | [], _ => .ok []
  | (name, v) :: rest, ts => do
    match ts.lookup name with
    | some t => return (name, ← convertTo v t) :: (← convertMatching rest ts)
    | none => convertMatching rest ts

end

/-- Converts a value to a type. -/
def convert (v : Value) (want : Ty) : Except ConvertError Value :=
  if v.ty == want then .ok v
  else if v.ty.converts want then v.convertTo want
  else .error (.mismatch v.ty want)

end Value

end CypherBlocks.Config
