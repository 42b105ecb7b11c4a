import CypherBlocks.Log.Write
import CypherBlocks.Preview.Options

/-!
# Settings of a run

What a run of the program works on and how it reports.
-/

namespace CypherBlocks.App

structure Settings where
  graphPath : String
  logFormat : String
  logLevel : String
  outputFormat : String
  /-- Whether to print the graph in canonical form instead of compiling it. -/
  formatGraph : Bool
  preview : Preview.Options
  deriving Repr, DecidableEq

def textOutput : String := "text"

def jsonOutput : String := "json"

inductive SettingsError where
  | noGraphPath
  | unknownOutput (format : String)
  | negativeTimeout (timeout : Int)
  deriving Repr, DecidableEq

def SettingsError.message : SettingsError → String
  | .noGraphPath => "GraphPath is a required configuration field and cannot be empty"
  | .unknownOutput format =>
    s!"invalid output format {Text.quoted format}: " ++
      s!"must be {Text.quoted textOutput} or {Text.quoted jsonOutput}"
  | .negativeTimeout timeout =>
    s!"preview timeout must not be negative, got {Duration.text timeout}"

namespace Settings

/-- Checks settings; the output is text unless they say otherwise. -/
def check (s : Settings) : Except SettingsError Settings :=
  let format := if s.outputFormat.isEmpty then textOutput else s.outputFormat
  if s.graphPath.isEmpty then .error .noGraphPath
  else if format ≠ textOutput && format ≠ jsonOutput then .error (.unknownOutput format)
  else if s.preview.timeout < 0 then .error (.negativeTimeout s.preview.timeout)
  else .ok { s with outputFormat := format }

/-- The least level that is logged; an unknown name stands for `info`. -/
def level (s : Settings) : Log.Level :=
  match s.logLevel with
  | "debug" => .debug
  | "warn" => .warn
  | "error" => .error
  | _ => .info

def style (s : Settings) : Log.Style := if s.logFormat = "json" then .json else .pairs

end Settings

end CypherBlocks.App
