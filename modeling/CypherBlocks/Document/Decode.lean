import CypherBlocks.Config.Source
import CypherBlocks.Graph.Basic
import CypherBlocks.Log.Record

/-!
# Arguments into parameters

A block's body gives its label and its parameters.  Arguments are visited by name in byte order;
each value is converted to the type of its parameter.  A null leaves a parameter as it is, but the
label has to be a text if it is given.
-/

namespace CypherBlocks.Document

open Config (Argument Problem Range Ty Value)

/-- Why a value does not fit its argument. -/
inductive Misfit where
  | notConvertible (got want : Ty) (cause : Config.ConvertError)
  | isNull
  | isUnknown
  | notWhole
  | tooLarge

/-- The largest finite double, an integer. -/
def largestDouble : Nat := (Nat.pow 2 53 - 1) * Nat.pow 2 971

def leastWhole : Int := -9223372036854775808

def greatestWhole : Int := 9223372036854775807

def Misfit.message : Misfit → String
  | .notConvertible got want cause =>
    s!"cannot convert {got.name} to required type {want.name}: {cause.message}"
  | .isNull => "null value is not allowed"
  | .isUnknown => "value must be known"
  | .notWhole => s!"value must be a whole number, between {leastWhole} and {greatestWhole}"
  | .tooLarge =>
    s!"value must be between -{largestDouble}.000000 and {largestDouble}.000000 inclusive"

/-- Why a body is not accepted. -/
inductive BodyError where
  | problem (p : Problem)
  | unsupported (range : Range) (name : String)
  | misfit (range : Range) (name : String) (cause : Misfit)

/-- The message of an error; that of a problem in the source is left to its summary. -/
def BodyError.message (file : String) : BodyError → String
  | .problem _ => ""
  | .unsupported range name => s!"{range.text file}: unsupported argument {Text.quoted name}"
  | .misfit range name cause =>
    s!"{range.text file}: failed to decode argument {Text.quoted name}: {cause.message}"

def BodyError.problem? : BodyError → Option Problem
  | .problem p => some p
  | _ => none

/-! ## Values -/

def valueTy : ArgumentTy → Ty
  | .text => .text
  | .whole | .real => .number
  | .texts => .list .text

def takeText : Value → Except Misfit String
  | .text s => .ok s
  | .null _ => .error .isNull
  | _ => .error .isUnknown

def takeWhole : Value → Except Misfit Int
  | .number n =>
    match n.toInt? with
    | some i => if leastWhole ≤ i && i ≤ greatestWhole then .ok i else .error .notWhole
    | none => .error .notWhole
  | .null _ => .error .isNull
  | _ => .error .isUnknown

/-- A finite number may lose digits but not become infinite. -/
def takeReal : Value → Except Misfit Double
  | .number n =>
    let x := Double.ofBinary n
    if n.isInfinite || x.isFinite then .ok x else .error .tooLarge
  | .null _ => .error .isNull
  | _ => .error .isUnknown

def takeTexts : Value → Except Misfit (List String)
  | .list _ items => items.mapM takeText
  | .null _ => .ok []
  | _ => .error .isUnknown

/-- The parameter that a converted value stands for. -/
def take (ty : ArgumentTy) (v : Value) : Except Misfit ArgumentValue :=
  match ty with
  | .text => (takeText v).map .text
  | .whole => (takeWhole v).map .whole
  | .real => (takeReal v).map .real
  | .texts => (takeTexts v).map .texts

/-- Converts a value and tells if that changes its type. -/
def decodeValue (ty : ArgumentTy) (v : Value) : List Log.Record × Except Misfit ArgumentValue :=
  match v.convert (valueTy ty) with
  | .error cause => ([], .error (.notConvertible v.ty (valueTy ty) cause))
  | .ok w =>
    let log :=
      if v.ty == w.ty then []
      else [Log.debug "Implicitly converted value type." [("from", .text v.ty.name),
        ("to", .text w.ty.name)]]
    (log, take ty w)

/-! ## Bodies -/

structure Decoded where
  label : String
  params : Params
  deriving Repr, DecidableEq

/-- The argument that holds a block's label. -/
def labelName : String := "label"

/-- Takes one argument over into what is decoded so far. -/
def decodeArgument (d : Decoded) (a : Argument) : List Log.Record × Except BodyError Decoded :=
  match a.value with
  | .error p => ([], .error (.problem p))
  | .ok v =>
    if a.name = labelName then
      let (log, r) := decodeValue .text v
      match r with
      | .ok (.text s) => (log, .ok { d with label := s })
      | .ok _ => (log, .ok d)
      | .error cause => (log, .error (.misfit a.range a.name cause))
    else
      match Params.argumentTy? d.params.kind a.name with
      | none => ([], .error (.unsupported a.range a.name))
      | some ty =>
        if v.isNull then
          ([Log.debug "Argument is null, leaving zero value." [("argument", .text a.name)]], .ok d)
        else
          let (log, r) := decodeValue ty v
          match r with
          | .ok x => (log, .ok { d with params := d.params.set a.name x })
          | .error cause => (log, .error (.misfit a.range a.name cause))

def decodeArguments : Decoded → List Argument → List Log.Record × Except BodyError Decoded
  | d, [] => ([], .ok d)
  | d, a :: rest =>
    let (log, r) := decodeArgument d a
    match r with
    | .error e => (log, .error e)
    | .ok d =>
      let (more, r) := decodeArguments d rest
      (log ++ more, r)

def sortByName (as : List Argument) : List Argument := as.mergeSort fun a b => a.name ≤ b.name

/-- The label and parameters that a body gives to a block of a kind. -/
def decodeBody (kind : Kind) (content : Config.Content) :
    List Log.Record × Except BodyError Decoded :=
  match content.arguments with
  | .error p => ([], .error (.problem p))
  | .ok as => decodeArguments ⟨"", Params.zero kind⟩ (sortByName as)

end CypherBlocks.Document
