/-!
# Diagnoses

What is reported about a graph that does not compile: a class of error, the block it concerns and a
text.  A report keeps the first error and all warnings.
-/

namespace CypherBlocks

inductive ErrorClass where
  /-- The shape of the graph. -/
  | structural
  /-- A parameter that is missing or out of range. -/
  | validation
  /-- Something that cannot be expressed in a query. -/
  | capability
  deriving Repr, DecidableEq

namespace ErrorClass

def name : ErrorClass → String
  | .structural => "structural"
  | .validation => "validation"
  | .capability => "capability"

def ofNumber? (n : Int) : Option ErrorClass :=
  if n = 0 then some .structural
  else if n = 1 then some .validation
  else if n = 2 then some .capability
  else none

/-- The name of a class by its number. -/
def nameOfNumber (n : Int) : String :=
  match ofNumber? n with
  | some c => c.name
  | none => s!"class({n})"

end ErrorClass

/-- An error; the block is empty if it concerns the whole graph. -/
structure Diagnosis where
  errorClass : ErrorClass
  block : String
  text : String
  deriving Repr, DecidableEq

def Diagnosis.message (d : Diagnosis) : String :=
  if d.block.isEmpty then d.text else s!"{d.block}: {d.text}"

/-- An error with the contexts in which it arose. -/
inductive Failure where
  | diagnosis (d : Diagnosis)
  | plain (text : String)
  | within (context : String) (cause : Failure)
  deriving Repr, DecidableEq

namespace Failure

def message : Failure → String
  | .diagnosis d => d.message
  | .plain text => text
  | .within context cause => s!"{context}: {cause.message}"

/-- The class of the diagnosis behind a failure; without one it counts as structural. -/
def errorClass : Failure → ErrorClass
  | .diagnosis d => d.errorClass
  | .plain _ => .structural
  | .within _ cause => cause.errorClass

end Failure

structure Report where
  errors : List String
  warnings : List String
  deriving Repr, DecidableEq

namespace Report

def empty : Report := ⟨[], []⟩

def failed (r : Report) : Bool := !r.errors.isEmpty

/-- Records an error unless there is one already. -/
def fail (r : Report) (e : Failure) : Report :=
  if r.failed then r else { r with errors := [e.message] }

def warn (r : Report) (text : String) : Report := { r with warnings := r.warnings ++ [text] }

end Report

end CypherBlocks
