import CypherBlocks.Text.Blank
import CypherBlocks.Text.LowerCase
import CypherBlocks.Text.Utf8

/-!
# Literals, names and comments

How text is written into a query so that it stays text: a string literal in single quotes, a name in
backticks unless it is a plain identifier, and a comment on one line.
-/

namespace CypherBlocks.Cypher

/-- A character in a string literal. -/
def escapeChar (c : Char) : List Char := if c = '\\' || c = '\'' then ['\\', c] else [c]

/-- The string literal of a text. -/
def quote (s : String) : String := String.ofList ('\'' :: s.toList.flatMap escapeChar ++ ['\''])

/-- The string literal of bytes; a byte that belongs to no character is replaced. -/
def quoteBytes (bytes : List UInt8) : String := quote (Text.decode bytes)

def isLetter (c : Char) : Bool := ('A' ≤ c && c ≤ 'Z') || ('a' ≤ c && c ≤ 'z') || c = '_'

def isLetterOrDigit (c : Char) : Bool := isLetter c || ('0' ≤ c && c ≤ '9')

/-- Whether a name can stand without backticks. -/
def isPlainName (s : String) : Bool :=
  match s.toList with
  | c :: rest => isLetter c && rest.all isLetterOrDigit
  | [] => false

def escapeBacktick (c : Char) : List Char := if c = '\x60' then [c, c] else [c]

/-- A name as it is written in a pattern. -/
def nameText (s : String) : String :=
  if isPlainName s then s else String.ofList ('\x60' :: s.toList.flatMap escapeBacktick ++ ['\x60'])

/-- The entries that are not blank, without blanks around them. -/
def usable (ss : List String) : List String := (ss.map Text.trim).filter fun s => !s.isEmpty

/-- The relationship types of a pattern; none stands for any type. -/
def relationshipTypes (types : List String) : String :=
  match usable types with
  | [] => ""
  | names => ":" ++ String.intercalate "|" (names.map nameText)

/-- A comment line. -/
def comment (s : String) : String :=
  "// " ++ String.ofList (s.toList.map fun c => if c = '\n' then ' ' else c)

end CypherBlocks.Cypher
