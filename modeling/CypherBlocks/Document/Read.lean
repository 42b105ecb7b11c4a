import CypherBlocks.Document.Decode

/-!
# Reading graph files

A graph file holds `block` sections with a kind and an id and `connection` sections from one id to
another.  Files whose name ends in `.hcl.json` are JSON.  Ids must not be blank and must differ.
-/

namespace CypherBlocks.Document

open Config (Content Problem Section SectionForm)

def nativeExtension : String := ".hcl"

def jsonExtension : String := ".hcl.json"

def formatOf (file : String) : Config.Format :=
  if file.endsWith jsonExtension then .json else .native

def blockForm : SectionForm := ⟨"block", ["kind", "id"]⟩

def connectionForm : SectionForm := ⟨"connection", ["source", "target"]⟩

/-- The parts of a graph file as they stand, before block bodies are looked at. -/
structure Outline where
  /-- Kind, id and body of each block. -/
  blocks : List (String × String × Content)
  connections : List Connection

/-- Why a block is not accepted. -/
inductive BlockError where
  | unknownKind (id tag : String)
  | blankId (kind : Kind)
  | body (id : String) (cause : BodyError)

/-- Why a graph file is not accepted. -/
inductive FileError where
  | syntactic (file : String) (p : Problem)
  | structural (file : String) (p : Problem)
  | block (file : String) (cause : BlockError)
  | duplicateId (file : String) (id : String)

def BlockError.message (file : String) : BlockError → String
  | .unknownKind id tag => s!"block {Text.quoted id}: {Kind.unknownMessage tag}"
  | .blankId kind => s!"{kind.tag} block has an empty id"
  | .body id cause => s!"block {Text.quoted id}: {cause.message file}"

def duplicateMessage (id : String) : String := s!"duplicate block id {Text.quoted id}"

def FileError.message : FileError → String
  | .syntactic file _ => s!"failed to parse HCL file {file}: "
  | .structural file _ => s!"failed to decode HCL file {file}: "
  | .block file cause => s!"in {file}: {cause.message file}"
  | .duplicateId file id => s!"in {file}: {duplicateMessage id}"

/-- The problem in the source behind an error. -/
def FileError.problem? : FileError → Option Problem
  | .syntactic _ p => some p
  | .structural _ p => some p
  | .block _ (.body _ cause) => cause.problem?
  | _ => none

/-- The outline of a parsed file; connections have labels only. -/
def outline (content : Content) : Except Problem Outline := do
  let sections ← content.sections [blockForm, connectionForm]
  let blocks := sections.filter (·.kind = blockForm.kind)
  let connections := sections.filter (·.kind = connectionForm.kind)
  blocks.forM fun s => s.content.checkShape
  connections.forM fun s => do
    let _ ← s.content.sections []
  return {
    blocks := blocks.map fun s => (s.labels.headD "", (s.labels.drop 1).headD "", s.content)
    connections := connections.map fun s => ⟨s.labels.headD "", (s.labels.drop 1).headD ""⟩ }

/-- The block of a kind's tag, an id and a body. -/
def readBlock (tag id : String) (content : Content) : List Log.Record × Except BlockError Block :=
  match Kind.ofTag? tag with
  | none => ([], .error (.unknownKind id tag))
  | some kind =>
    if Text.isBlank id then ([], .error (.blankId kind))
    else
      let (log, r) := decodeBody kind content
      match r with
      | .error cause => (log, .error (.body id cause))
      | .ok d =>
        let done := Log.debug "Translated block." [("block_id", .text id), ("kind", .text kind.tag)]
        (log ++ [done], .ok ⟨id, d.label, some d.params⟩)

def readBlocks : List (String × String × Content) → List Log.Record × Except BlockError (List Block)
  | [] => ([], .ok [])
  | (tag, id, content) :: rest =>
    let (log, r) := readBlock tag id content
    match r with
    | .error e => (log, .error e)
    | .ok b =>
      let (more, r) := readBlocks rest
      (log ++ more, r.map (b :: ·))

/-- The graph in one source. -/
def readSource (file : String) (source : List Text.Symbol) :
    List Log.Record × Except FileError Graph :=
  match Config.parse (formatOf file) source with
  | .error p => ([], .error (.syntactic file p))
  | .ok content =>
    match outline content with
    | .error p => ([], .error (.structural file p))
    | .ok o =>
      let (log, r) := readBlocks o.blocks
      match r with
      | .error cause => (log, .error (.block file cause))
      | .ok blocks =>
        let g : Graph := ⟨blocks, o.connections⟩
        match g.duplicateId? with
        | some id => (log, .error (.duplicateId file id))
        | none => (log, .ok g)

end CypherBlocks.Document
