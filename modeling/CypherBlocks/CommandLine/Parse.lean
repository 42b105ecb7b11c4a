import CypherBlocks.CommandLine.Flag

/-!
# Reading the command line

Flags come first and end before the first other argument or after `--`.  The graph is named by a
flag or by the first argument after the flags.  Without one the usage is printed.
-/

namespace CypherBlocks.CommandLine

inductive UsageError where
  | badFlag (argument : String)
  | undefinedFlag (name : String)
  | missingValue (name : String)
  | badSwitch (value name : String)
  | badValue (value name : String)
  deriving Repr, DecidableEq

def UsageError.message : UsageError → String
  | .badFlag argument => s!"bad flag syntax: {argument}"
  | .undefinedFlag name => s!"flag provided but not defined: -{name}"
  | .missingValue name => s!"flag needs an argument: -{name}"
  | .badSwitch value name => s!"invalid boolean value {Text.quoted value} for -{name}: parse error"
  | .badValue value name => s!"invalid value {Text.quoted value} for flag -{name}: parse error"

/-- An argument as a flag: its name, and the value after an equals sign. -/
inductive Argument where
  | positional
  | endOfFlags
  | malformed
  | flag (name : String) (value : Option String)
  deriving Repr, DecidableEq

/-- Splits a flag at the first equals sign after its first character. -/
def splitFlag (cs : List Char) : String × Option String :=
  match cs with
  | [] => ("", none)
  | c :: rest =>
    let name := c :: rest.takeWhile (· ≠ '=')
    match rest.dropWhile (· ≠ '=') with
    | _ :: value => (String.ofList name, some (String.ofList value))
    | [] => (String.ofList name, none)

def flagArgument (cs : List Char) : Argument :=
  match cs with
  | [] => .malformed
  | c :: _ =>
    if c = '-' || c = '=' then .malformed
    else
      let (name, value) := splitFlag cs
      .flag name value

def classify (argument : String) : Argument :=
  match argument.toList with
  | ['-', '-'] => .endOfFlags
  | '-' :: '-' :: cs => flagArgument cs
  | '-' :: c :: cs => flagArgument (c :: cs)
  | _ => .positional

/-- Why the reading of flags stops before the end. -/
inductive Stop where
  | help
  | error (e : UsageError)
  deriving Repr, DecidableEq

/-- Sets a flag that is given with `value` or, if it has none and needs one, with the next argument.
Also tells how many further arguments that takes. -/
def readFlag (flags : Flags) (name : String) (value : Option String) (next : Option String) :
    Except Stop (Flags × Nat) :=
  match Flag.ofName? name with
  | none => .error (if name = "help" || name = "h" then .help else .error (.undefinedFlag name))
  | some f =>
    if f.ty = .switch then
      match f.set? flags (value.getD "true") with
      | some flags => .ok (flags, 0)
      | none => .error (.error (.badSwitch (value.getD "") name))
    else
      match value.or next with
      | none => .error (.error (.missingValue name))
      | some v =>
        match f.set? flags v with
        | some flags => .ok (flags, if value.isSome then 0 else 1)
        | none => .error (.error (.badValue v name))

/-- Reads flags and leaves the other arguments. -/
def readFlags (flags : Flags) : List String → Except Stop (Flags × List String)
  | [] => .ok (flags, [])
  | argument :: rest =>
    match classify argument with
    | .positional => .ok (flags, argument :: rest)
    | .endOfFlags => .ok (flags, rest)
    | .malformed => .error (.error (.badFlag argument))
    | .flag name value =>
      match readFlag flags name value rest.head? with
      | .error stop => .error stop
      | .ok (flags, taken) => readFlags flags (rest.drop taken)
termination_by arguments => arguments.length
decreasing_by simp only [List.length_drop, List.length_cons]; omega

/-- What a command line asks for. -/
inductive Request where
  | run (s : App.Settings)
  | exit
  | refuse (message : String)
  deriving Repr, DecidableEq

/-- A request and what is printed while it is read. -/
structure Reply where
  output : String
  request : Request
  deriving Repr, DecidableEq

/-- The exit code of a refused command line. -/
def refusedCode : Nat := 2

/-- The graph named by flags, or else by the first argument. -/
def graphPath (flags : Flags) (arguments : List String) : String :=
  if !flags.graph.isEmpty then flags.graph
  else if !flags.g.isEmpty then flags.g
  else arguments.headD ""

/-- Checks the values of the flags. -/
def settings (flags : Flags) (path : String) : Except String App.Settings :=
  let logFormat := Text.lower flags.logFormat
  let logLevel := Text.lower flags.logLevel
  let output := Text.lower flags.output
  if logFormat ∉ ["text", "json"] then .error "invalid log-format: must be 'text' or 'json'"
  else if logLevel ∉ ["debug", "info", "warn", "error"] then
    .error "invalid log-level: must be 'debug', 'info', 'warn', or 'error'"
  else if output ∉ [App.textOutput, App.jsonOutput] then
    .error "invalid output: must be 'text' or 'json'"
  else
    let s : App.Settings := ⟨path, logFormat, logLevel, output, flags.fmt, flags.preview⟩
    s.check.mapError (·.message)

/-- Reads a command line. -/
def parse (arguments : List String) : Reply :=
  match readFlags Flags.default arguments with
  | .error .help => ⟨usage, .exit⟩
  | .error (.error e) => ⟨e.message ++ "\n" ++ usage, .refuse e.message⟩
  | .ok (flags, rest) =>
    let path := graphPath flags rest
    if path.isEmpty then ⟨usage, .exit⟩
    else
      match settings flags path with
      | .ok s => ⟨"", .run s⟩
      | .error message => ⟨"", .refuse message⟩

end CypherBlocks.CommandLine
