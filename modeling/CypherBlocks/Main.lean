import CypherBlocks.CommandLine.Session

/-!
# The program

Reads the graph files that the command line names, runs a session on them and prints what it says.
-/

namespace CypherBlocks

open Files (Entry)

/-- The entries at and below a path of the file system. A link to a file counts as that file; one to
a folder is not followed.  What cannot be opened is closed. -/
partial def entriesAt (path : String) : IO (List (String × Entry)) := do
  let place := (← IO.currentDir) / path
  if !(← place.pathExists) then return []
  if ← place.isDir then
    if (← place.symlinkMetadata).type == .symlink then return [(path, .link "")]
    match ← place.readDir.toBaseIO with
    | .ok found =>
      let inner ← found.toList.mapM fun f => entriesAt (Files.joinPath path f.fileName)
      return (path, .emptyFolder) :: inner.flatten
    | .error _ => return [(path, .closed true)]
  match ← (IO.FS.readBinFile place).toBaseIO with
  | .ok bytes => return [(path, .file bytes.toList)]
  | .error _ => return [(path, .closed false)]

/-- The entries that a path passes on its way, as far as they tell files from folders. -/
def entriesPassed (path : String) : IO (List (String × Entry)) := do
  let parts := Files.pathParts path
  let passed := (List.range parts.length).map fun n => String.intercalate "/" (parts.take n)
  passed.filterMapM fun (outer : String) => do
    let place := (← IO.currentDir) / outer
    if ← place.isDir then return some (outer, .emptyFolder)
    else if ← place.pathExists then return some (outer, .file [])
    else return none

/-- The part of the file system that a session depends on. -/
def readTree (arguments : List String) : IO Entry := do
  match (CommandLine.parse arguments).request with
  | .run s => return .ofPaths ((← entriesPassed s.graphPath) ++ (← entriesAt s.graphPath))
  | _ => return .emptyFolder

end CypherBlocks

def main (arguments : List String) : IO UInt32 := do
  let files ← CypherBlocks.readTree arguments
  let s := CypherBlocks.CommandLine.session arguments ⟨files, none, .absent⟩
  (← IO.getStdout).putStr s.output
  (← IO.getStderr).putStr s.errorText
  return s.exitCode.toUInt32
