import CypherBlocks.Document.Read

/-!
# Writing graph files

The canonical form of a graph: one section per block with its label and the arguments that say
something, then one per connection.  The equals signs of a block stand below each other, and text is
normalised.
-/

namespace CypherBlocks.Document

/-- Why a graph cannot be written. -/
inductive WriteError where
  | noParameters (id : String)
  | notANumber
  deriving Repr, DecidableEq

def WriteError.message : WriteError → String
  | .noParameters id => s!"block {Text.quoted id} has no parameters"
  | .notANumber => "Float.SetFloat64(NaN)"

/-! ## Values -/

/-- A character of a text in quotes, but for the signs that open a template sequence. -/
def escapeChar (c : Char) : List Char :=
  if c = '\n' then ['\\', 'n']
  else if c = '\r' then ['\\', 'r']
  else if c = '\t' then ['\\', 't']
  else if c = '"' then ['\\', '"']
  else if c = '\\' then ['\\', '\\']
  else if Text.isPrintable c then [c]
  else if c.toNat < 0x10000 then '\\' :: 'u' :: Text.hex 4 c.toNat
  else '\\' :: 'U' :: Text.hex 8 c.toNat

/-- Escapes a text; a sign that would open a template sequence is doubled. -/
def escapeText : List Char → List Char
  | [] => []
  | '$' :: '{' :: rest => '$' :: '$' :: '{' :: escapeText rest
  | '%' :: '{' :: rest => '%' :: '%' :: '{' :: escapeText rest
  | c :: rest => escapeChar c ++ escapeText rest

def textLiteral (s : String) : String :=
  String.ofList ('"' :: escapeText (Text.normalize s).toList ++ ['"'])

/-- A number without exponent. -/
def realLiteral (x : Double) : Except WriteError String :=
  match x.toBinary? with
  | some n => .ok n.text
  | none => .error .notANumber

def literal : ArgumentValue → Except WriteError String
  | .text s => .ok (textLiteral s)
  | .whole n => .ok (toString n)
  | .real x => realLiteral x
  | .texts ss => .ok ("[" ++ String.intercalate ", " (ss.map textLiteral) ++ "]")

/-! ## Sections -/

/-- The arguments of a block that say something. -/
def writtenArguments (label : String) (p : Params) : List (String × ArgumentValue) :=
  ((labelName, .text label) :: p.arguments).filter fun (_, v) => !v.isZero

/-- An argument line with its name padded to a width. -/
def argumentLine (width : Nat) (name value : String) : String :=
  let padding := String.ofList (List.replicate (width - name.length) ' ')
  s!"  {name}{padding} = {value}\n"

def sectionHead (kind first second : String) : String :=
  s!"{kind} {textLiteral first} {textLiteral second} \x7b\n"

def sectionEnd : String := "\x7d\n"

def blockText (b : Block) : Except WriteError String :=
  match b.params with
  | none => .error (.noParameters b.id)
  | some p => do
    let arguments := writtenArguments b.label p
    let width := (arguments.map (·.1.length)).foldl max 0
    let lines ← arguments.mapM fun (name, v) => do return argumentLine width name (← literal v)
    return sectionHead blockForm.kind p.kind.tag b.id ++ String.join lines ++ sectionEnd

def connectionText (c : Connection) : String :=
  sectionHead connectionForm.kind c.source c.target ++ sectionEnd

/-- The canonical text of a graph. A blank line stands between blocks, and before the first
connection if there are blocks. -/
def write (g : Graph) : Except WriteError String := do
  let blocks ← g.blocks.mapM blockText
  let connections := String.join (g.connections.map connectionText)
  let gap := if g.blocks.isEmpty || g.connections.isEmpty then "" else "\n"
  return String.intercalate "\n" blocks ++ gap ++ connections

end CypherBlocks.Document
