import CypherBlocks.Log.Record
import CypherBlocks.Text.Blank
import CypherBlocks.Text.JsonText

/-!
# Log lines

A record is one line, either `name=value` pairs or a JSON object.
-/

namespace CypherBlocks.Log

inductive Style where
  | pairs
  | json
  deriving Repr, DecidableEq

/-- Whether a character of a value asks for quotes. -/
def needsQuotes (c : Char) : Bool :=
  if c.toNat < 0x80 then c = ' ' || c = '=' || c = '"' || c.toNat < 0x20
  else c.toNat = 0xfffd || Text.isBlankChar c || !Text.isPrintable c

def pairText (s : String) : String :=
  if s.isEmpty || s.toList.any needsQuotes then Text.quoted s else s

def Item.jsonText : Item → String
  | .text s => Text.jsonText false s
  | item => item.plain

def Record.pairsLine (r : Record) : String :=
  let pairs := [("level", r.level.name), ("msg", r.message)] ++ r.items.map fun (name, item) =>
    (name, item.plain)
  String.intercalate " " (pairs.map fun (name, s) => s!"{name}={pairText s}") ++ "\n"

def Record.jsonLine (r : Record) : String :=
  let members := [("level", Item.text r.level.name), ("msg", .text r.message)] ++ r.items
  let texts := members.map fun (name, item) => s!"{Text.jsonText false name}:{item.jsonText}"
  "\x7b" ++ String.intercalate "," texts ++ "\x7d\n"

def Record.line (style : Style) (r : Record) : String :=
  match style with
  | .pairs => r.pairsLine
  | .json => r.jsonLine

/-- The lines of all records of a level or above. -/
def write (style : Style) (least : Level) (records : List Record) : String :=
  String.join ((records.filter fun r => least.rank ≤ r.level.rank).map (·.line style))

end CypherBlocks.Log
