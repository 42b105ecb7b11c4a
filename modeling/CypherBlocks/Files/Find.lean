import CypherBlocks.Files.Tree

/-!
# Finding files

All files at or below a path whose name ends in one of some extensions, depth first and by name
within a folder.  Links count as files and are not followed.  A folder that may not be opened ends
the search.
-/

namespace CypherBlocks.Files

inductive FindError where
  | noExtension
  | path (cause : PathError)
  deriving Repr, DecidableEq

def FindError.message : FindError → String
  | .noExtension => "at least one extension is required"
  | .path cause => cause.message

def hasExtension (extensions : List String) (name : String) : Bool :=
  extensions.any (name.endsWith ·)

mutual

/-- The files with one of the extensions at or below an entry. -/
def filesAt (extensions : List String) (path name : String) : Entry → Except PathError (List String)
  | .folder entries => filesBelow extensions path entries
  | .closed true => .error ⟨"open", path, .notPermitted⟩
  | .file _ | .link _ | .closed false => .ok (if hasExtension extensions name then [path] else [])

def filesBelow (extensions : List String) (path : String) :
    List (String × Entry) → Except PathError (List String)
  | [] => .ok []
  | (name, e) :: rest => do
    let files ← filesAt extensions (joinPath path name) name e
    return files ++ (← filesBelow extensions path rest)

end

/-- The files with one of the extensions at or below a path; there has to be an extension. -/
def find (top : Entry) (root : String) (extensions : List String) :
    Except FindError (List String) :=
  if extensions.isEmpty then .error .noExtension
  else
    match resolve top false root with
    | .ok e => (filesAt extensions root (baseName root) e).mapError .path
    | .error reason => .error (.path ⟨"lstat", root, reason⟩)

end CypherBlocks.Files
