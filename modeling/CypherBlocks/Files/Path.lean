/-!
# Paths

A path is names between slashes.  Its shortest form has no names that say nothing.
-/

namespace CypherBlocks.Files

/-- The parts of a path between slashes. -/
def pathParts (path : String) : List String := (path.toList.splitOn '/').map String.ofList

/-- Drops the parts of a path that say nothing: a folder that is left again, the present folder and
doubled slashes. The parts so far are reversed. -/
def cleanParts : List String → List String → List String
  | [], done => done.reverse
  | name :: rest, done =>
    if name = "" || name = "." then cleanParts rest done
    else if name = ".." then
      match done with
      | last :: before =>
        if last = ".." then cleanParts rest (name :: done) else cleanParts rest before
      | [] => cleanParts rest [name]
    else cleanParts rest (name :: done)

/-- The parts of a path below the top folder, which cannot be left. -/
def placeOf (path : String) : List String := (cleanParts (pathParts path) []).dropWhile (· = "..")

/-- A path with a name below it, in its shortest form. -/
def joinPath (path name : String) : String :=
  let parts := cleanParts (pathParts path ++ [name]) []
  if path.startsWith "/" then "/" ++ String.intercalate "/" (parts.dropWhile (· = ".."))
  else String.intercalate "/" parts

/-- The last part of a path. -/
def baseName (path : String) : String :=
  match ((pathParts path).filter (· ≠ "")).getLast? with
  | some name => name
  | none => if path.isEmpty then "" else "/"

end CypherBlocks.Files
