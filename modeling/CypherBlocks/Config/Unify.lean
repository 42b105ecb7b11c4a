import CypherBlocks.Config.Convert

/-!
# A type for several values

The type that the two results of a conditional share.  Tuples of one length and objects with the
same attributes are unified part by part; other tuples become lists and other objects maps.  Among
simple types text is preferred, since the others have a text; what is not known yet is preferred
least.
-/

namespace CypherBlocks.Config.Ty

mutual

def depth : Ty → Nat
  | .list e | .map e => e.depth + 1
  | .tuple ts => depths ts + 1
  | .object as => attributeDepths as + 1
  | _ => 0

def depths : List Ty → Nat
  | [] => 0
  | t :: ts => max t.depth (depths ts)

def attributeDepths : List (String × Ty) → Nat
  | [] => 0
  | (_, t) :: as => max t.depth (attributeDepths as)

end

def isDynamic : Ty → Bool
  | .dynamic => true
  | _ => false

def tupleElements? : Ty → Option (List Ty)
  | .tuple ts => some ts
  | _ => none

def objectAttributes? : Ty → Option (List (String × Ty))
  | .object as => some as
  | _ => none

/-- The element types of a list or a tuple. -/
def sequenceElements? : Ty → Option (List Ty)
  | .list e => some [e]
  | .tuple ts => some ts
  | _ => none

/-- The element types of a map or an object. -/
def mappingElements? : Ty → Option (List Ty)
  | .map e => some [e]
  | .object as => some (as.map (·.2))
  | _ => none

def isList : Ty → Bool
  | .list _ => true
  | _ => false

def isMap : Ty → Bool
  | .map _ => true
  | _ => false

/-- The columns of a list of equally long rows. -/
def columns : List (List Ty) → List (List Ty)
  | [] => []
  | row :: rows => row.mapIdx fun i t => t :: rows.filterMap (·[i]?)

/-- Types in the order in which they are preferred. -/
def byPreference (ts : List Ty) : List Ty :=
  ts.filter (· == .text) ++ ts.filter (fun t => !(t == .text) && !t.isDynamic) ++
    ts.filter (·.isDynamic)

/-- The most preferred type that all others convert to. -/
def preferred? (ts : List Ty) : Option Ty :=
  (byPreference ts).find? fun t => ts.all (·.converts t)

/-- Each type once. -/
def distinct (ts : List Ty) : List Ty :=
  ts.foldl (fun seen t => if seen.any (· == t) then seen else seen ++ [t]) []

def unifyWith : Nat → List Ty → Option Ty
  | 0, ts => preferred? ts
  | fuel + 1, ts =>
    let known := ts.filter (!·.isDynamic)
    let undecided := known.length < ts.length
    if known.isEmpty then ts.head?
    else if let some rows := known.mapM tupleElements? then
      if undecided then some .dynamic
      else if rows.all (·.length = (rows.headD []).length) then
        ((columns rows).mapM (unifyWith fuel)).map .tuple
      else (unifyWith fuel (distinct rows.flatten)).map .list
    else if let some rows := known.mapM objectAttributes? then
      if undecided then some .dynamic
      else
        let names := (rows.headD []).map (·.1)
        if rows.all (·.map (·.1) = names) then
          ((columns (rows.map (·.map (·.2)))).mapM (unifyWith fuel)).map fun ts =>
            .object (names.zip ts)
        else (unifyWith fuel (distinct (rows.flatten.map (·.2)))).map .map
    else if let some rows := known.mapM sequenceElements? then
      if undecided && known.all isList then some .dynamic
      else (unifyWith fuel (distinct rows.flatten)).map .list
    else if let some rows := known.mapM mappingElements? then
      if undecided && known.all isMap then some .dynamic
      else (unifyWith fuel (distinct rows.flatten)).map .map
    else preferred? ts

/-- The type that values of all the given types can be converted to. -/
def unify (ts : List Ty) : Option Ty := unifyWith (depths ts + 1) ts

end CypherBlocks.Config.Ty
