import CypherBlocks.App.Render
import CypherBlocks.Document.Load
import CypherBlocks.Document.Write
import CypherBlocks.Preview.Refusal

/-!
# A run of the program

A run loads the graph, compiles it, writes the result and shows it to the preview if there is one.
All that a run depends on is given with it: the file tree, which write fails, and how the preview
behaves.  What the preview does never changes the output or the failure.
-/

namespace CypherBlocks.App

/-- How a preview server behaves; a text is the error of a call that fails. -/
inductive Server where
  | answering (dialError publishError closeError : Option String)
  /-- Only the options are checked; no server is there to be reached. -/
  | absent
  deriving Repr, DecidableEq

/-- What a run depends on. -/
structure Surroundings where
  files : Files.Entry
  /-- The first write that fails, and its error. -/
  failingWrite : Option (Nat × String)
  server : Server

inductive Event where
  | dial (options : Preview.Options)
  | publish (source : String) (result : Result)
  | close
  deriving Repr, DecidableEq

inductive RunError where
  | load (cause : Document.LoadError)
  | encode (cause : Document.WriteError)
  /-- A write of the result failed. -/
  | result (cause : String)
  /-- A write of the canonical form failed. -/
  | canonical (cause : String)
  | compilationFailed

namespace RunError

def message : RunError → String
  | .load cause => s!"failed to load graph: {cause.message}"
  | .encode cause => s!"failed to encode graph: {cause.message}"
  | .result cause => s!"failed to write result: {cause}"
  | .canonical cause => cause
  | .compilationFailed => "compilation failed"

def problem? : RunError → Option Config.Problem
  | .load cause => cause.problem?
  | _ => none

def isPathError : RunError → Bool
  | .load cause => cause.isPathError
  | _ => false

end RunError

structure Outcome where
  output : String
  log : List Log.Record
  events : List Event
  failure : Option RunError

/-! ## Writing -/

/-- What reaches the output, and the error of the write that failed. -/
def performWrites (failing : Option (Nat × String)) (writes : List String) :
    String × Option String :=
  match failing with
  | some (n, cause) =>
    if n < writes.length then (String.join (writes.take n), some cause)
    else (String.join writes, none)
  | none => (String.join writes, none)

/-! ## Preview -/

def warning (message cause : String) : Log.Record := ⟨.warn, message, [("error", .text cause)]⟩

def unavailable (cause : String) : Log.Record := warning "Preview unavailable." cause

/-- The records of publishing to a server that was reached, and of closing the connection. -/
def publishLog (s : Settings) (publishError closeError : Option String) : List Log.Record :=
  let published := match publishError with
    | some cause => warning "Failed to publish compiled query." cause
    | none => ⟨.info, "Published compiled query to preview.", [("url", .text s.preview.url)]⟩
  let closed := match closeError with
    | some cause => [warning "Failed to close preview connection." cause]
    | none => []
  published :: closed

/-- Shows a result to the preview. -/
def publish (s : Settings) (server : Server) (r : Result) : List Log.Record × List Event :=
  match server with
  | .answering (some cause) _ _ => ([unavailable cause], [.dial s.preview])
  | .answering none publishError closeError =>
    (publishLog s publishError closeError, [.dial s.preview, .publish s.graphPath r, .close])
  | .absent =>
    match s.preview.check with
    | .error e => ([unavailable e.message], [])
    | .ok _ => ([unavailable s!"preview connection failed: {Preview.refusalText []}"], [])

/-! ## Runs -/

/-- Prints the canonical form of a graph. -/
def runFormat (w : Surroundings) (g : Graph) : Outcome :=
  match Document.write g with
  | .error e => ⟨"", [], [], some (.encode e)⟩
  | .ok text =>
    let (output, failed) := performWrites w.failingWrite [text]
    ⟨output, [], [], failed.map .canonical⟩

/-- Compiles a graph and shows the result. -/
def runCompile (s : Settings) (w : Surroundings) (g : Graph) : Outcome :=
  let r := compile g
  let finished : Log.Record := ⟨.info, "Compilation finished.",
    [("ok", .bool r.ok), ("errors", .whole r.errors.length),
      ("warnings", .whole r.warnings.length)]⟩
  let log := compileLog g ++ [finished]
  let (output, failed) := performWrites w.failingWrite (resultWrites s.outputFormat r)
  match failed with
  | some cause => ⟨output, log, [], some (.result cause)⟩
  | none =>
    let (more, events) := if s.preview.url.isEmpty then ([], []) else publish s w.server r
    let done := Log.debug "App.Run method finished." []
    ⟨output, log ++ more ++ [done], events, if r.ok then none else some .compilationFailed⟩

/-- A whole run with checked settings. -/
def run (s : Settings) (w : Surroundings) : Outcome :=
  let started := [Log.debug "Logger configured successfully." [],
    Log.debug "App.Run method started." [("graph_path", .text s.graphPath)]]
  let (log, loaded) := Document.load w.files [s.graphPath]
  match loaded with
  | .error e => ⟨"", started ++ log, [], some (.load e)⟩
  | .ok g =>
    let counted := Log.debug "Graph loaded."
      [("blocks", .whole g.blocks.length), ("connections", .whole g.connections.length)]
    let o := if s.formatGraph then runFormat w g else runCompile s w g
    { o with log := started ++ log ++ [counted] ++ o.log }

/-- The log of a run as it is written. -/
def Outcome.logText (s : Settings) (o : Outcome) : String := Log.write s.style s.level o.log

end CypherBlocks.App
