import CypherBlocks.App.Settings
import CypherBlocks.Compile

/-!
# Showing a result

As text, the query is followed by one line per error and warning; each of them is written on its
own.  As JSON, the result is a single object.
-/

namespace CypherBlocks.App

def textWrites (r : Result) : List String :=
  (if r.text.isEmpty then [] else [r.text ++ "\n"])
    ++ r.errors.map (fun m => s!"error: {m}\n") ++ r.warnings.map (fun m => s!"warning: {m}\n")

/-- A list of strings as an indented JSON array. -/
def jsonList (ss : List String) : String :=
  match ss with
  | [] => "[]"
  | _ =>
    "[\n" ++ String.intercalate ",\n" (ss.map fun s => s!"    {Text.jsonText true s}") ++ "\n  ]"

def jsonWrite (r : Result) : String :=
  "\x7b\n" ++ s!"  \"text\": {Text.jsonText true r.text},\n" ++
    s!"  \"errors\": {jsonList r.errors},\n"
    ++ s!"  \"warnings\": {jsonList r.warnings}\n" ++ "\x7d\n"

/-- What is written to show a result, write by write. -/
def resultWrites (format : String) (r : Result) : List String :=
  if format = jsonOutput then [jsonWrite r] else textWrites r

end CypherBlocks.App
