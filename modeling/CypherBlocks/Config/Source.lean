import CypherBlocks.Config.Eval
import CypherBlocks.Config.Json.Node
import CypherBlocks.Config.Parser.Body

/-!
# Configuration sources

A file is written in the native notation or in JSON.  Both give the same view: a body has arguments,
or sections with labels that have bodies of their own.
-/

namespace CypherBlocks.Config

inductive Format where
  | native
  | json
  deriving Repr, DecidableEq

/-- What stands between the braces of a section, or in a whole file. -/
inductive Content where
  | native (body : Body)
  | json (node : Json.Node)

/-- An argument with its place and its value, or the problem that it has none. -/
structure Argument where
  name : String
  range : Range
  value : Except Problem Value

structure Section where
  kind : String
  labels : List String
  content : Content

/-- The form of a section: its kind and what its labels are called. -/
structure SectionForm where
  kind : String
  labels : List String

/-- Reads a source; the first problem counts. -/
def parse (format : Format) (s : List Text.Symbol) : Except Problem Content :=
  match format with
  | .native =>
    match parseFile s with
    | (body, []) => .ok (.native body)
    | (_, p :: _) => .error p
  | .json => do return .json (← Json.readText s)

/-! ## Arguments -/

def nativeArguments (body : Body) : Except Problem (List Argument) :=
  match body.blocks with
  | [] => .ok (body.attributes.map fun a => ⟨a.name, a.range, a.expr.value⟩)
  | b :: _ => .error (.unexpectedBlock b.kind)

/-- The properties of an object as arguments; `//` marks a comment. -/
def jsonArguments (seen : List String) :
    List (String × Position × Json.Node) → Except Problem (List Argument)
  | [] => .ok []
  | (name, first, node) :: rest =>
    if name = "//" then jsonArguments seen rest
    else if name ∈ seen then .error .duplicateAttribute
    else do
      let more ← jsonArguments (name :: seen) rest
      return ⟨name, ⟨first, node.last⟩, Json.value node⟩ :: more

/-- The arguments of a body that has nothing else. -/
def Content.arguments : Content → Except Problem (List Argument)
  | .native body => nativeArguments body
  | .json (.object _ properties) => jsonArguments [] properties
  | .json _ => .error .wrongJsonType

/-! ## Sections -/

/-- What is wrong with the number of a section's labels. -/
def labelProblem? (form : SectionForm) (labels : List String) : Option Problem :=
  if form.labels.length < labels.length then some (.extraLabel form.kind)
  else
    match form.labels[labels.length]? with
    | some missing => some (.missingLabel missing form.kind)
    | none => none

def findForm? (forms : List SectionForm) (kind : String) : Option SectionForm :=
  forms.find? (·.kind = kind)

/-- What is wrong with the sections of a native body: labels first, then arguments, then kinds that
are not known. -/
def nativeProblems (forms : List SectionForm) (body : Body) : List Problem :=
  let labels := body.blocks.filterMap fun b =>
    match findForm? forms b.kind with
    | some form => labelProblem? form b.labels
    | none => none
  let arguments := body.attributes.map fun _ => Problem.unsupportedArgument
  let kinds := (body.blocks.filter fun b => (findForm? forms b.kind).isNone).map fun _ =>
    Problem.unsupportedBlock
  labels ++ arguments ++ kinds

def nativeSections (forms : List SectionForm) (body : Body) : Except Problem (List Section) :=
  match nativeProblems forms body with
  | [] => .ok (body.blocks.map fun b => ⟨b.kind, b.labels, .native b.body⟩)
  | p :: _ => .error p

abbrev JsonProperty := String × Position × Json.Node

/-- The properties of an object, or of all objects of an array; null has none. -/
def deepProperties : Json.Node → Except Problem (List JsonProperty)
  | .null _ => .ok []
  | .object _ properties => .ok properties
  | .array _ items => do
    let parts ← items.mapM fun
      | .object _ properties => Except.ok properties
      | _ => .error .wrongJsonType
    return parts.flatten
  | _ => .error .wrongJsonType

/-- The sections below a property: one level of properties for each label still missing, then one
section, or an array of them. -/
def jsonSectionsAt (kind : String) :
    List String → List String → Json.Node → Except Problem (List Section)
  | _ :: missing, labels, node => do
    let properties ← deepProperties node
    if properties.isEmpty then .error .noBlockLabel
    else
      let parts ← properties.mapM fun (name, _, value) =>
        jsonSectionsAt kind missing (labels ++ [name]) value
      return parts.flatten
  | [], labels, node =>
    match node with
    | .null _ => .ok []
    | .object _ _ => .ok [⟨kind, labels, .json node⟩]
    | .array _ items => .ok (items.map fun item => ⟨kind, labels, .json item⟩)
    | _ => .error .wrongJsonType

def jsonSections (forms : List SectionForm) (node : Json.Node) : Except Problem (List Section) := do
  let properties ← deepProperties node
  let parts ← properties.mapM fun (name, _, value) =>
    match findForm? forms name with
    | some form => jsonSectionsAt form.kind form.labels [] value
    | none => .ok []
  if properties.any fun (name, _, _) => name ≠ "//" && (findForm? forms name).isNone then
    .error .extraProperty
  else return parts.flatten

/-- The sections of a body that has nothing else, each of one of the given forms. -/
def Content.sections (forms : List SectionForm) : Content → Except Problem (List Section)
  | .native body => nativeSections forms body
  | .json node => jsonSections forms node

/-- Checks that a body can have arguments at all. -/
def Content.checkShape : Content → Except Problem Unit
  | .native _ => .ok ()
  | .json node => do
    let _ ← deepProperties node
    return ()

end CypherBlocks.Config
