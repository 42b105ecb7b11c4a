import CypherBlocks.Config.Expr
import CypherBlocks.Config.Problem
import CypherBlocks.Config.Unify

/-!
# Evaluating expressions

There are no variables but those that a `for` binds, and no functions.  Evaluation goes on after a
problem, with an unknown value in place of the one that is missing, so an expression yields a value
and the list of its problems.
-/

namespace CypherBlocks.Config

/-- The names that the enclosing `for`s bind, innermost first, and the element at hand in a
splat. -/
structure Scope where
  names : List (String × Value)
  item : Value

def Scope.empty : Scope := ⟨[], .unknown .dynamic⟩

abbrev Evaluated := Value × List Problem

def undecided : Value := .unknown .dynamic

def texts (s : String) : Value := .text (Text.normalize s)

/-! ## Steps into values -/

def getAttribute (v : Value) (name : String) : Evaluated :=
  let name := Text.normalize name
  match v with
  | .null _ => (undecided, [.attributeOfNull])
  | .object attributes =>
    match attributes.lookup name with
    | some a => (a, [])
    | none => (undecided, [.unsupportedAttribute])
  | .unknown (.object attributes) =>
    match attributes.lookup name with
    | some t => (.unknown t, [])
    | none => (undecided, [.unsupportedAttribute])
  | .map _ entries =>
    match entries.lookup name with
    | some a => (a, [])
    | none => (undecided, [.missingMapElement])
  | .unknown (.map t) => (.unknown t, [])
  | .unknown .dynamic => (undecided, [])
  | _ => (undecided, [.unsupportedAttribute])

/-- The element of a sequence at a number, which has to be whole and within it. -/
def elementAt (items : List Value) (key : Value) : Evaluated :=
  match key.convert .number with
  | .ok (.number n) =>
    match n.toInt? with
    | some i =>
      if 0 ≤ i then
        match items[i.toNat]? with
        | some v => (v, [])
        | none => (undecided, [.invalidIndex])
      else (undecided, [.invalidIndex])
    | none => (undecided, [.invalidIndex])
  | .ok _ => (undecided, [])
  | .error _ => (undecided, [.invalidIndex])

def entryAt (entries : List (String × Value)) (key : Value) : Evaluated :=
  match key.convert .text with
  | .ok (.text s) =>
    match entries.lookup s with
    | some v => (v, [])
    | none => (undecided, [.invalidIndex])
  | .ok _ => (undecided, [])
  | .error _ => (undecided, [.invalidIndex])

/-- The element of a collection that is not known yet: only the kind of key can be wrong. -/
def unknownElement (t : Ty) (key : Value) : Evaluated :=
  match t with
  | .list e =>
    match key.convert .number with
    | .ok _ => (.unknown e, [])
    | .error _ => (undecided, [.invalidIndex])
  | .tuple _ =>
    match key.convert .number with
    | .ok _ => (undecided, [])
    | .error _ => (undecided, [.invalidIndex])
  | .map e =>
    match key.convert .text with
    | .ok _ => (.unknown e, [])
    | .error _ => (undecided, [.invalidIndex])
  | .object _ =>
    match key.convert .text with
    | .ok _ => (undecided, [])
    | .error _ => (undecided, [.invalidIndex])
  | .dynamic => (undecided, [])
  | _ => (undecided, [.invalidIndex])

def getIndex (v key : Value) : Evaluated :=
  if v.isNull then (undecided, [.indexOfNull])
  else if key.isNull then (undecided, [.invalidIndex])
  else if key.isDynamic then (undecided, [])
  else
    match v with
    | .list _ items => elementAt items key
    | .tuple items => elementAt items key
    | .map _ entries => entryAt entries key
    | .object attributes => entryAt attributes key
    | .unknown t => unknownElement t key
    | _ => (undecided, [.invalidIndex])

def takeStep (v : Value) : Step → Evaluated
  | .named name => getAttribute v name
  | .index key => getIndex v key.value

/-- Follows steps up to the first that fails. -/
def takeSteps : Value → List Step → Evaluated
  | v, [] => (v, [])
  | v, s :: rest =>
    match takeStep v s with
    | (w, []) => takeSteps w rest
    | (_, ps) => (undecided, ps)

/-! ## Operators -/

mutual

/-- Whether two values of one type are equal; nulls equal each other. -/
def sameValue : Value → Value → Bool
  | .null _, .null _ => true
  | .bool a, .bool b => a == b
  | .number m, .number n => m.sameNumber n
  | .text s, .text t => s == t
  | .list _ as, .list _ bs => sameValues as bs
  | .tuple as, .tuple bs => sameValues as bs
  | .map _ as, .map _ bs => sameEntries as bs
  | .object as, .object bs => sameEntries as bs
  | _, _ => false

def sameValues : List Value → List Value → Bool
  | [], [] => true
  | a :: as, b :: bs => sameValue a b && sameValues as bs
  | _, _ => false

def sameEntries : List (String × Value) → List (String × Value) → Bool
  | [], [] => true
  | (m, a) :: as, (n, b) :: bs => m == n && sameValue a b && sameEntries as bs
  | _, _ => false

end

/-- Equality as an operator: values of different types differ, and the unknown may equal
anything. -/
def equality (a b : Value) : Option Bool :=
  if a.isNull && b.isNull then some true
  else if !a.isWhollyKnown || !b.isWhollyKnown then none
  else if a.isNull || b.isNull then some false
  else some (a.ty == b.ty && sameValue a b)

def BinaryOp.operandTy : BinaryOp → Ty
  | .either | .both => .bool
  | .equal | .notEqual => .dynamic
  | _ => .number

def BinaryOp.resultTy : BinaryOp → Ty
  | .add | .subtract | .multiply | .divide | .remainder => .number
  | _ => .bool

def known? (t : Ty) : Option Value → Evaluated
  | some v => (v, [])
  | none => (.unknown t, [.operationFailed])

/-- Applies an operator to converted operands. -/
def applyBinary (op : BinaryOp) (a b : Value) : Evaluated :=
  match op with
  | .equal =>
    match equality a b with
    | some r => (.bool r, [])
    | none => (.unknown .bool, [])
  | .notEqual =>
    match equality a b with
    | some r => (.bool !r, [])
    | none => (.unknown .bool, [])
  | _ =>
    if a.isNull || b.isNull then (.unknown op.resultTy, [.operationFailed])
    else
      match a, b with
      | .number m, .number n =>
        match op with
        | .greater => (.bool (m.order n == .gt), [])
        | .greaterEqual => (.bool (m.order n != .lt), [])
        | .less => (.bool (m.order n == .lt), [])
        | .lessEqual => (.bool (m.order n != .gt), [])
        | .add => known? .number ((m.add? n).map .number)
        | .subtract => known? .number ((m.sub? n).map .number)
        | .multiply => known? .number ((m.mul? n).map .number)
        | .divide => known? .number ((m.div? n).map .number)
        | .remainder => known? .number ((m.rem? n).map .number)
        | _ => (undecided, [])
      | .bool p, .bool q =>
        match op with
        | .either => (.bool (p || q), [])
        | .both => (.bool (p && q), [])
        | _ => (undecided, [])
      | _, _ => (.unknown op.resultTy, [])

def isTrue : Value → Bool
  | .bool true => true
  | _ => false

/-- A known side that settles a logical operator on its own, together with that side's problems. An
unknown side leaves the result open if the other does not settle it. -/
def shortCut? (op : BinaryOp) (a b : Evaluated) : Option Evaluated :=
  let settling :=
    match op with
    | .either => some true
    | .both => some false
    | _ => none
  match settling with
  | none => none
  | some s =>
    let settles (v : Value) : Bool := v.isKnown && isTrue v == s
    if !a.1.isKnown && !b.1.isKnown then none
    else if settles a.1 then some (.bool s, a.2)
    else if settles b.1 then some (.bool s, b.2)
    else if !a.1.isKnown then some (.unknown .bool, a.2)
    else if !b.1.isKnown then some (.unknown .bool, b.2)
    else none

/-- An operator applied to evaluated operands. Operands of a wrong type are reported first. -/
def evalBinary (op : BinaryOp) (a b : Evaluated) : Evaluated :=
  match a.1.convert op.operandTy, b.1.convert op.operandTy with
  | .ok va, .ok vb =>
    match shortCut? op (va, a.2) (vb, b.2) with
    | some r => r
    | none =>
      match a.2 ++ b.2 with
      | [] => applyBinary op va vb
      | ps => (.unknown op.resultTy, ps)
  | .ok _, .error _ => (.unknown op.resultTy, .invalidOperand :: a.2 ++ b.2)
  | .error _, .ok _ => (.unknown op.resultTy, .invalidOperand :: a.2 ++ b.2)
  | .error _, .error _ => (.unknown op.resultTy, .invalidOperand :: .invalidOperand :: a.2 ++ b.2)

def evalUnary (op : UnaryOp) (a : Evaluated) : Evaluated :=
  let t : Ty := match op with
    | .negate => .number
    | .not => .bool
  match a.1.convert t with
  | .error _ => (.unknown t, a.2 ++ [.invalidOperand])
  | .ok (.number n) => (.number n.negate, a.2)
  | .ok (.bool b) => (.bool !b, a.2)
  | .ok (.null _) => (.unknown t, a.2 ++ [.operationFailed])
  | .ok _ => (.unknown t, a.2)

/-- Whether a value is the null of no known type. -/
def isBareNull : Value → Bool
  | .null .dynamic => true
  | _ => false

/-- The type of a conditional, which both branches are converted to. A bare null takes the type of
the other branch. -/
def branchTy? (yes no : Value) : Option Ty :=
  if isBareNull yes then some no.ty
  else if isBareNull no then some yes.ty
  else if yes.isDynamic || no.isDynamic then some .dynamic
  else Ty.unify [yes.ty, no.ty]

/-- A branch as the result of a conditional. -/
def chooseBranch (t : Ty) (branch : Evaluated) (ps : List Problem) : Evaluated :=
  match branch.1.convert t with
  | .ok v => (v, ps ++ branch.2)
  | .error _ => (.unknown t, ps ++ branch.2 ++ [.inconsistentBranches])

/-- Only the chosen branch reports its problems, but the types of both have to fit. -/
def evalConditional (condition yes no : Evaluated) : Evaluated :=
  match branchTy? yes.1 no.1 with
  | none => (undecided, [.inconsistentBranches])
  | some t =>
    if condition.1.isNull then (.unknown t, condition.2 ++ [.nullCondition])
    else if !condition.1.isKnown then (.unknown t, condition.2)
    else
      match condition.1.convert .bool with
      | .ok c => chooseBranch t (if isTrue c then yes else no) condition.2
      | .error _ => (.unknown t, condition.2 ++ [.wrongConditionType])

/-! ## Templates -/

/-- The parts of a template one after the other; the text is unknown if one of them is. -/
def evalTemplate : List Evaluated → List String → Bool → List Problem → Evaluated
  | [], done, known, ps => (if known then texts (String.join done.reverse) else .unknown .text, ps)
  | (v, more) :: rest, done, known, ps =>
    let ps := ps ++ more
    if v.isNull then evalTemplate rest done known (ps ++ [.invalidInterpolationValue])
    else if !v.isKnown then evalTemplate rest done false ps
    else
      match v.convert .text with
      | .ok (.text s) => evalTemplate rest (s :: done) known ps
      | _ => evalTemplate rest done known (ps ++ [.invalidInterpolationValue])

def evalJoin (a : Evaluated) : Evaluated :=
  match a.1 with
  | .tuple items => evalTemplate (items.map (·, [])) [] true a.2
  | .list _ items => evalTemplate (items.map (·, [])) [] true a.2
  | _ => (.unknown .text, a.2)

/-! ## Objects -/

def objectOf (entries : List (String × Value)) : Value :=
  .object (entries.foldl (fun done (name, v) => setEntry (Text.normalize name) v done) [])

/-- The entries of an object constructor; of two with one key the later stays. -/
def evalEntries :
    List (Evaluated × Evaluated) → List (String × Value) → Bool → List Problem → Evaluated
  | [], done, known, ps => (if known then objectOf done.reverse else undecided, ps)
  | ((key, ps1), (value, ps2)) :: rest, done, known, ps =>
    let ps := ps ++ ps1 ++ ps2
    if !ps1.isEmpty then evalEntries rest done false ps
    else if key.isNull then evalEntries rest done false (ps ++ [.nullKey])
    else
      match key.convert .text with
      | .ok (.text s) => evalEntries rest ((s, value) :: done) known ps
      | .ok _ => evalEntries rest done false ps
      | .error _ => evalEntries rest done false (ps ++ [.wrongKeyType])

/-! ## Iteration -/

/-- The keys and values of a collection. -/
def elements? : Value → Option (List (Value × Value))
  | .list _ items => some (items.mapIdx fun i v => (.number (Binary.ofIndex i), v))
  | .tuple items => some (items.mapIdx fun i v => (.number (Binary.ofIndex i), v))
  | .map _ entries => some (entries.map fun (k, v) => (.text k, v))
  | .object attributes => some (attributes.map fun (k, v) => (.text k, v))
  | _ => none

def isCollection : Ty → Bool
  | .list _ | .map _ | .tuple _ | .object _ => true
  | _ => false

/-- The scope of one round of a `for`. -/
def Scope.bind (scope : Scope) (key : Option String) (name : String) (k v : Value) : Scope :=
  let keyed := match key with
    | some n => (n, k) :: scope.names
    | none => scope.names
  { scope with names := (name, v) :: keyed }

/-- Whether a round takes part: `none` if that is not known, with the problem if there is one. -/
def roundTakesPart (condition : Value) : Option Bool × List Problem :=
  if condition.isNull then (none, [.invalidForCondition])
  else
    match condition.convert .bool with
    | .ok (.bool b) => (some b, [])
    | .ok _ => (none, [])
    | .error _ => (none, [.invalidForCondition])

/-- The rounds of a `for`, given the check of its condition before the first, or the reason why
there are none. -/
def forRounds (source : Evaluated) (check : Evaluated) : Except Evaluated (List (Value × Value)) :=
  let (v, ps) := source
  if v.isNull then .error (undecided, ps ++ [.iterationOverNull])
  else if v.isDynamic then .error (undecided, ps)
  else if !isCollection v.ty then .error (undecided, ps ++ [.notIterable])
  else
    match elements? v with
    | none => .error (undecided, ps)
    | some es =>
      if check.1.isNull then .error (undecided, ps ++ check.2 ++ [.nullForCondition])
      else
        match check.1.convert .bool with
        | .error _ => .error (undecided, ps ++ check.2 ++ [.invalidForCondition])
        | .ok _ => if check.2.isEmpty then .ok es else .error (undecided, ps ++ check.2)

/-- A round of a `for` that makes a tuple. -/
structure TupleRound where
  condition : Evaluated
  value : Evaluated

def collectTuple : List TupleRound → List Value → Bool → List Problem → Evaluated
  | [], done, known, ps => (if known then .tuple done.reverse else undecided, ps)
  | r :: rest, done, known, ps =>
    let ps := ps ++ r.condition.2
    match roundTakesPart r.condition.1 with
    | (some true, _) => collectTuple rest (r.value.1 :: done) known (ps ++ r.value.2)
    | (some false, _) => collectTuple rest done known ps
    | (none, more) => collectTuple rest done false (ps ++ if known then more else [])

/-- A round of a `for` that makes an object. -/
structure ObjectRound where
  condition : Evaluated
  key : Evaluated
  value : Evaluated

/-- Adds a value to the values of its key. -/
def addToGroup (key : String) (v : Value) (groups : List (String × List Value)) :
    List (String × List Value) :=
  setEntry key (((groups.lookup key).getD []) ++ [v]) groups

def groupsValue (grouped : Bool) (groups : List (String × List Value)) : Value :=
  objectOf (groups.map fun (k, vs) => (k, if grouped then .tuple vs else vs.headD undecided))

def collectObject (grouped : Bool) :
    List ObjectRound → List (String × List Value) → Bool → List Problem → Evaluated
  | [], groups, known, ps => (if known then groupsValue grouped groups else undecided, ps)
  | r :: rest, groups, known, ps =>
    let ps := ps ++ r.condition.2
    match roundTakesPart r.condition.1 with
    | (some false, _) => collectObject grouped rest groups known ps
    | (none, more) => collectObject grouped rest groups false (ps ++ if known then more else [])
    | (some true, _) =>
      let ps := ps ++ r.key.2
      let invalid := ps ++ if known then [.invalidObjectKey] else []
      if r.key.1.isNull then collectObject grouped rest groups false invalid
      else if !r.key.1.isKnown then collectObject grouped rest groups false ps
      else
        match r.key.1.convert .text with
        | .ok (.text k) =>
          let ps := ps ++ r.value.2
          if !grouped && groups.any (·.1 = k) then
            collectObject grouped rest groups known (ps ++ [.duplicateObjectKey])
          else collectObject grouped rest (addToGroup k r.value.1 groups) known ps
        | _ => collectObject grouped rest groups false invalid

/-- The elements that a splat goes through, and whether they are those of a list; or the reason why
there are none. A value that is no sequence stands for a sequence of itself, null for an empty
one. -/
def splatItems (source : Evaluated) : Except Evaluated (List Value × Bool) :=
  let (v, ps) := source
  if !ps.isEmpty then .error (undecided, ps)
  else
    match v with
    | .null t => if t.isSequence then .error (undecided, [.splatOfNull]) else .error (.tuple [], [])
    | .unknown _ => .error (undecided, [])
    | .list _ items => .ok (items, true)
    | .tuple items => .ok (items, false)
    | v => .ok ([v], false)

def collectSplat (isList : Bool) (results : List Evaluated) : Evaluated :=
  let ps := results.flatMap (·.2)
  let vs := results.map (·.1)
  if !ps.isEmpty then (undecided, ps)
  else if isList then (.list ((vs.head?.map (·.ty)).getD .dynamic) vs, [])
  else (.tuple vs, [])

/-! ## Evaluation -/

def lookupVariable (scope : Scope) (name : String) : Evaluated :=
  if scope.names.isEmpty then (undecided, [.variablesNotAllowed])
  else
    match scope.names.lookup name with
    | some v => (v, [])
    | none => (undecided, [.unknownVariable])

mutual

@[simp] def eval (scope : Scope) : Expr → Evaluated
  | .literal l => (l.value, [])
  | .template parts => evalTemplate (evalAll scope parts) [] true []
  | .interpolation e => eval scope e
  | .join e => evalJoin (eval scope e)
  | .variable name => lookupVariable scope name
  | .item => (scope.item, [])
  | .call => (undecided, [.functionsNotAllowed])
  | .steps source steps =>
    let (v, ps) := eval scope source
    let (w, more) := takeSteps v steps
    (w, ps ++ more)
  | .index source key =>
    let (v, ps) := eval scope source
    let (k, ps1) := eval scope key
    let (w, ps2) := getIndex v k
    (w, ps ++ ps1 ++ ps2)
  | .splat source each =>
    match splatItems (eval scope source) with
    | .error r => r
    | .ok (items, isList) =>
      collectSplat isList (items.map fun v => eval { scope with item := v } each)
  | .conditional condition yes no =>
    evalConditional (eval scope condition) (eval scope yes) (eval scope no)
  | .binary op left right => evalBinary op (eval scope left) (eval scope right)
  | .unary op e => evalUnary op (eval scope e)
  | .tuple items =>
    let results := evalAll scope items
    (.tuple (results.map (·.1)), results.flatMap (·.2))
  | .object items => evalEntries (evalPairs scope items) [] true []
  | .ambiguousKey => (undecided, [.ambiguousKey])
  | .forTuple key name source value condition =>
    let source := eval scope source
    match forRounds source (eval (scope.bind key name undecided undecided) condition) with
    | .error r => r
    | .ok es =>
      let rounds := es.map fun (k, v) =>
        let inner := scope.bind key name k v
        TupleRound.mk (eval inner condition) (eval inner value)
      collectTuple rounds [] true source.2
  | .forObject key name source keyed value condition grouped =>
    let source := eval scope source
    match forRounds source (eval (scope.bind key name undecided undecided) condition) with
    | .error r => r
    | .ok es =>
      let rounds := es.map fun (k, v) =>
        let inner := scope.bind key name k v
        ObjectRound.mk (eval inner condition) (eval inner keyed) (eval inner value)
      collectObject grouped rounds [] true source.2

@[simp] def evalAll (scope : Scope) : List Expr → List Evaluated
  | [] => []
  | e :: rest => eval scope e :: evalAll scope rest

@[simp] def evalPairs (scope : Scope) : List (Expr × Expr) → List (Evaluated × Evaluated)
  | [] => []
  | (k, v) :: rest => (eval scope k, eval scope v) :: evalPairs scope rest

end

/-- The value of an expression, or its first problem. -/
def Expr.value (e : Expr) : Except Problem Value :=
  match eval Scope.empty e with
  | (v, []) => .ok v
  | (_, p :: _) => .error p

end CypherBlocks.Config
