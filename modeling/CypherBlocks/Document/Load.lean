import CypherBlocks.Document.Read
import CypherBlocks.Files.Find

/-!
# Loading graphs from files

The graph files at or below some paths make one graph, in the order in which they are found.  Ids
have to differ across files too.
-/

namespace CypherBlocks.Document

open Files (Entry FindError PathError)

inductive LoadError where
  | notFound (path : String) (cause : FindError)
  | noFiles (paths : List String)
  | unreadable (file : String) (cause : PathError)
  | file (cause : FileError)
  | duplicateId (id : String)

namespace LoadError

def message : LoadError → String
  | .notFound path cause => s!"failed to find graph files in {path}: {cause.message}"
  | .noFiles paths =>
    s!"no {nativeExtension} or {jsonExtension} files found in " ++ String.intercalate ", " paths
  | .unreadable name cause => s!"failed to read graph file {name}: {cause.message}"
  | .file cause => cause.message
  | .duplicateId id => duplicateMessage id

def problem? : LoadError → Option Config.Problem
  | .file cause => cause.problem?
  | _ => none

/-- Whether a path is to blame. -/
def isPathError : LoadError → Bool
  | .notFound _ _ | .unreadable _ _ => true
  | _ => false

end LoadError

/-- The graph files of all paths. -/
def graphFiles (top : Entry) : List String → Except LoadError (List String)
  | [] => .ok []
  | path :: rest =>
    match Files.find top path [nativeExtension, jsonExtension] with
    | .error cause => .error (.notFound path cause)
    | .ok files => (graphFiles top rest).map (files ++ ·)

/-- The graph in one file. -/
def readGraphFile (top : Entry) (file : String) : List Log.Record × Except LoadError Graph :=
  match Files.readFile top file with
  | .error cause => ([], .error (.unreadable file cause))
  | .ok bytes =>
    let (log, r) := readSource file (Text.symbols bytes)
    (log, r.mapError .file)

/-- The graphs in some files, one after the other. -/
def readGraphFiles (top : Entry) : List String → List Log.Record × Except LoadError Graph
  | [] => ([], .ok Graph.empty)
  | file :: rest =>
    let (log, r) := readGraphFile top file
    match r with
    | .error e => (log, .error e)
    | .ok g =>
      let (more, r) := readGraphFiles top rest
      (log ++ more, r.map g.append)

/-- Checks that ids differ. -/
def checkIds (g : Graph) : Except LoadError Graph :=
  match g.duplicateId? with
  | some id => .error (.duplicateId id)
  | none => .ok g

/-- The graph in all files at or below some paths. -/
def load (top : Entry) (paths : List String) : List Log.Record × Except LoadError Graph :=
  let started := Log.debug "HCL loader started." [("path_count", .whole paths.length)]
  match graphFiles top paths with
  | .error e => ([started], .error e)
  | .ok files =>
    let found := Log.debug "Discovered graph files." [("count", .whole files.length)]
    if files.isEmpty then ([started, found], .error (.noFiles paths))
    else
      let (log, r) := readGraphFiles top files
      match r.bind checkIds with
      | .error e => ([started, found] ++ log, .error e)
      | .ok g =>
        let complete := Log.debug "HCL loading complete."
          [("blocks", .whole g.blocks.length), ("connections", .whole g.connections.length)]
        ([started, found] ++ log ++ [complete], .ok g)

end CypherBlocks.Document
