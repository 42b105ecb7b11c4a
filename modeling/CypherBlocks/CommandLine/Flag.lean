import CypherBlocks.App.Settings
import CypherBlocks.Text.LowerCase

/-!
# Flags of the command line

Each flag has a name, a type and a line of help.  A flag is written `-name=value` or `-name value`,
with one dash or two; a switch stands alone or has `=value`.
-/

namespace CypherBlocks.CommandLine

inductive Flag where
  | fmt | g | graph | logFormat | logLevel | output
  | previewEvent | previewInsecure | previewNamespace | previewTimeout | previewUrl
  deriving Repr, DecidableEq

inductive FlagTy where
  | switch | text | duration
  deriving Repr, DecidableEq

/-- The values of all flags. -/
structure Flags where
  graph : String
  g : String
  logFormat : String
  logLevel : String
  fmt : Bool
  output : String
  preview : Preview.Options
  deriving Repr, DecidableEq

/-- The values of flags that are not given. -/
def Flags.default : Flags where
  graph := ""
  g := ""
  logFormat := "text"
  logLevel := "warn"
  fmt := false
  output := App.textOutput
  preview := ⟨"", Preview.defaultSpace, Preview.defaultEvent, Preview.defaultTimeout, false⟩

namespace Flag

/-- All flags by name. -/
def all : List Flag :=
  [.fmt, .g, .graph, .logFormat, .logLevel, .output, .previewEvent, .previewInsecure,
    .previewNamespace, .previewTimeout, .previewUrl]

def name : Flag → String
  | .fmt => "fmt"
  | .g => "g"
  | .graph => "graph"
  | .logFormat => "log-format"
  | .logLevel => "log-level"
  | .output => "output"
  | .previewEvent => "preview-event"
  | .previewInsecure => "preview-insecure-skip-verify"
  | .previewNamespace => "preview-namespace"
  | .previewTimeout => "preview-timeout"
  | .previewUrl => "preview-url"

def ofName? (name : String) : Option Flag := all.find? (·.name = name)

def ty : Flag → FlagTy
  | .fmt | .previewInsecure => .switch
  | .previewTimeout => .duration
  | _ => .text

def help : Flag → String
  | .fmt => "Print the loaded graph as canonical HCL instead of compiling it."
  | .g => "Path to the graph file or directory (shorthand)."
  | .graph => "Path to the graph file or directory."
  | .logFormat => "Log output format. Options: 'text' or 'json'."
  | .logLevel => "Set the logging level. Options: 'debug', 'info', 'warn', 'error'."
  | .output => "Result format. Options: 'text' or 'json'."
  | .previewEvent => "Event name used when publishing."
  | .previewInsecure => "Skip TLS certificate verification for the preview server."
  | .previewNamespace => "socket.io namespace for the preview."
  | .previewTimeout => "How long to wait for the preview connection."
  | .previewUrl => "socket.io server to publish the compiled query to. Empty disables publishing."

/-- The value of a flag of type text. -/
def textOf (flags : Flags) : Flag → String
  | .g => flags.g
  | .graph => flags.graph
  | .logFormat => flags.logFormat
  | .logLevel => flags.logLevel
  | .output => flags.output
  | .previewEvent => flags.preview.event
  | .previewNamespace => flags.preview.space
  | .previewUrl => flags.preview.url
  | _ => ""

def setText (flags : Flags) (s : String) : Flag → Flags
  | .g => { flags with g := s }
  | .graph => { flags with graph := s }
  | .logFormat => { flags with logFormat := s }
  | .logLevel => { flags with logLevel := s }
  | .output => { flags with output := s }
  | .previewEvent => { flags with preview := { flags.preview with event := s } }
  | .previewNamespace => { flags with preview := { flags.preview with space := s } }
  | .previewUrl => { flags with preview := { flags.preview with url := s } }
  | _ => flags

def setSwitch (flags : Flags) (b : Bool) : Flag → Flags
  | .fmt => { flags with fmt := b }
  | .previewInsecure => { flags with preview := { flags.preview with insecure := b } }
  | _ => flags

def setDuration (flags : Flags) (ns : Int) : Flag → Flags
  | .previewTimeout => { flags with preview := { flags.preview with timeout := ns } }
  | _ => flags

/-- The value of a switch. -/
def switchValue? (s : String) : Option Bool :=
  if s ∈ ["1", "t", "T", "TRUE", "true", "True"] then some true
  else if s ∈ ["0", "f", "F", "FALSE", "false", "False"] then some false
  else none

/-- Sets a flag from its text, if that can be read. -/
def set? (flags : Flags) (value : String) (f : Flag) : Option Flags :=
  match f.ty with
  | .text => some (f.setText flags value)
  | .switch => (switchValue? value).map fun b => f.setSwitch flags b
  | .duration => (Duration.parse? value).map fun ns => f.setDuration flags ns

end Flag

/-! ## Usage -/

/-- What the help says about a flag's type. -/
def typeText : FlagTy → String
  | .switch => ""
  | .text => " string"
  | .duration => " duration"

def defaultText (f : Flag) : String :=
  match f.ty with
  | .switch => ""
  | .duration => s!" (default {Duration.text Flags.default.preview.timeout})"
  | .text =>
    let s := f.textOf Flags.default
    if s.isEmpty then "" else s!" (default {Text.quoted s})"

def flagUsage (f : Flag) : String := s!"  -{f.name}{typeText f.ty}\n    \t{f.help}{defaultText f}\n"

def usage : String :=
  "\nQueryGrid - compiles visual block graphs into Cypher queries.\n\n"
    ++ "Usage:\n  querygrid [options] [GRAPH_PATH]\n\n"
    ++ "Arguments:\n  GRAPH_PATH\n"
    ++ "    Path to a single .hcl / .hcl.json file or a directory containing them.\n\nOptions:\n"
    ++ String.join (Flag.all.map flagUsage)

end CypherBlocks.CommandLine
