import CypherBlocks.Files.Path

/-!
# File trees

A tree is a folder of named entries: files, folders and links.  Some files and folders may not be
opened.  A path is resolved from the top folder; links inside a path are followed, one at its end
only on request.
-/

namespace CypherBlocks.Files

inductive Entry where
  | file (bytes : List UInt8)
  | folder (entries : List (String × Entry))
  | link (target : String)
  /-- A file or a folder that is there and may not be opened. -/
  | closed (asFolder : Bool)

namespace Entry

def emptyFolder : Entry := .folder []

def isFolder : Entry → Bool
  | .folder _ => true
  | .closed asFolder => asFolder
  | _ => false

def entries : Entry → List (String × Entry)
  | .folder es => es
  | _ => []

/-- Puts an entry into a list ordered by name; one of the same name is replaced. -/
def insertEntry (name : String) (e : Entry) : List (String × Entry) → List (String × Entry)
  | [] => [(name, e)]
  | (n, x) :: rest =>
    if name = n then (name, e) :: rest
    else if name < n then (name, e) :: (n, x) :: rest
    else (n, x) :: insertEntry name e rest

/-- Puts an entry at a place; missing folders on the way are made. A folder that is there stays. -/
def insertAt : List String → Entry → Entry → Entry
  | [], e, old => if e.isFolder && old.isFolder then old else e
  | name :: rest, e, old =>
    let inner := (old.entries.lookup name).getD emptyFolder
    .folder (insertEntry name (insertAt rest e inner) old.entries)

/-- The tree with entries at some paths; a later one replaces an earlier one of the same path. -/
def ofPaths (entries : List (String × Entry)) : Entry :=
  entries.foldl (fun top (path, e) => insertAt (placeOf path) e top) emptyFolder

/-- The entry at a place, without following links. -/
def at? (e : Entry) : List String → Option Entry
  | [] => some e
  | name :: rest =>
    match e.entries.lookup name with
    | some inner => inner.at? rest
    | none => none

end Entry

/-- Why a path leads nowhere. -/
inductive PathReason where
  | notFound
  | notFolder
  | tooManyLinks
  | isFolder
  | notPermitted
  deriving Repr, DecidableEq

def PathReason.text : PathReason → String
  | .notFound => "no such file or directory"
  | .notFolder => "not a directory"
  | .tooManyLinks => "too many levels of symbolic links"
  | .isFolder => "is a directory"
  | .notPermitted => "permission denied"

structure PathError where
  operation : String
  path : String
  reason : PathReason
  deriving Repr, DecidableEq

def PathError.message (e : PathError) : String := s!"{e.operation} {e.path}: {e.reason.text}"

/-- How many links may be followed on the way. -/
def mostLinks : Nat := 40

/-- Resolves the parts of a path from the folder at a place, given in reverse. -/
def resolveFrom (top : Entry) (followLast : Bool) (links : Nat) (place : List String)
    (parts : List String) : Except PathReason Entry :=
  match parts with
  | [] =>
    match top.at? place.reverse with
    | some e => .ok e
    | none => .error .notFound
  | name :: rest =>
    if name = "" || name = "." then resolveFrom top followLast links place rest
    else if name = ".." then resolveFrom top followLast links (place.drop 1) rest
    else
      match top.at? (name :: place).reverse with
      | none => .error .notFound
      | some (.folder _) => resolveFrom top followLast links (name :: place) rest
      | some (.file bytes) => if rest.isEmpty then .ok (.file bytes) else .error .notFolder
      | some (.closed false) => if rest.isEmpty then .ok (.closed false) else .error .notFolder
      -- slashes after its name do not open a folder
      | some (.closed true) =>
        if rest.all (·.isEmpty) then .ok (.closed true) else .error .notPermitted
      | some (.link target) =>
        if rest.isEmpty && !followLast then .ok (.link target)
        else
          match links with
          | 0 => .error .tooManyLinks
          | links + 1 =>
            let start := if target.startsWith "/" then [] else place
            resolveFrom top followLast links start (pathParts target ++ rest)
termination_by (links, parts.length)

/-- The entry that a path leads to; the empty path leads nowhere. -/
def resolve (top : Entry) (followLast : Bool) (path : String) : Except PathReason Entry :=
  if path.isEmpty then .error .notFound
  else resolveFrom top followLast mostLinks [] (pathParts path)

/-- The bytes of the file that a path leads to. -/
def readFile (top : Entry) (path : String) : Except PathError (List UInt8) :=
  match resolve top true path with
  | .ok (.file bytes) => .ok bytes
  | .ok (.closed _) => .error ⟨"open", path, .notPermitted⟩
  | .ok _ => .error ⟨"read", path, .isFolder⟩
  | .error reason => .error ⟨"open", path, reason⟩

end CypherBlocks.Files
