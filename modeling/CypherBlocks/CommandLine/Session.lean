import CypherBlocks.App.Run
import CypherBlocks.CommandLine.Parse

/-!
# A session

What the program does for a command line: what it prints, what it logs, how it fails and the code it
exits with.
-/

namespace CypherBlocks.CommandLine

inductive SessionError where
  | refused (message : String)
  | run (cause : App.RunError)

structure Session where
  output : String
  log : String
  failure : Option SessionError

/-- Runs the program for a command line. -/
def session (arguments : List String) (w : App.Surroundings) : Session :=
  let reply := parse arguments
  match reply.request with
  | .exit => ⟨reply.output, "", none⟩
  | .refuse message => ⟨reply.output, "", some (.refused message)⟩
  | .run s =>
    let o := App.run s w
    ⟨reply.output ++ o.output, o.logText s, o.failure.map .run⟩

/-- The message about a failure, with the summary of a problem in a source. A failed compilation has
been reported already. -/
def failureText : SessionError → String
  | .refused message => message ++ "\n"
  | .run .compilationFailed => ""
  | .run cause =>
    let summary := match cause.problem? with
      | some p => p.summary
      | none => ""
    cause.message ++ summary ++ "\n"

/-- What goes to the error output: the log and the message about a failure. -/
def Session.errorText (s : Session) : String :=
  match s.failure with
  | some e => s.log ++ failureText e
  | none => s.log

def Session.exitCode (s : Session) : Nat :=
  match s.failure with
  | some (.refused _) => refusedCode
  | some (.run _) => 1
  | none => 0

end CypherBlocks.CommandLine
