import CypherBlocks.Text.Quoted

/-!
# Strings in JSON output

Control characters and the two line separators are escaped; for text that may end up in a web page
so are the characters of markup.
-/

namespace CypherBlocks.Text

def isMarkup (c : Char) : Bool := c = '<' || c = '>' || c = '&'

def isLineSeparator (c : Char) : Bool := c.toNat = 0x2028 || c.toNat = 0x2029

def jsonChar (escapeMarkup : Bool) (c : Char) : List Char :=
  if c = '"' then ['\\', '"']
  else if c = '\\' then ['\\', '\\']
  else if c = '\n' then ['\\', 'n']
  else if c = '\r' then ['\\', 'r']
  else if c = '\t' then ['\\', 't']
  else if c.toNat = 0x08 then ['\\', 'b']
  else if c.toNat = 0x0c then ['\\', 'f']
  else if c.toNat < 0x20 || isLineSeparator c || (escapeMarkup && isMarkup c) then
    '\\' :: 'u' :: hex 4 c.toNat
  else [c]

/-- A text as a JSON string. -/
def jsonText (escapeMarkup : Bool) (s : String) : String :=
  String.ofList ('"' :: s.toList.flatMap (jsonChar escapeMarkup) ++ ['"'])

end CypherBlocks.Text
