import CypherBlocks.Text.Cluster

/-!
# Tokens of a configuration file

A token knows its kind, its text and where it stands.  Lines and columns count from one, and a
column is a grapheme cluster.
-/

namespace CypherBlocks.Config

inductive TokenKind where
  | openBrace | closeBrace | openBracket | closeBracket | openParen | closeParen
  | openQuote | closeQuote | openHeredoc | closeHeredoc
  | openInterpolation | openDirective | closeSequence
  | star | slash | plus | minus | percent
  | assign | equal | notEqual | less | lessEqual | greater | greaterEqual | both | either | bang
  | dot | comma | doubleColon | ellipsis | fatArrow | question | colon
  | quotedText | heredocText | number | identifier | comment | newline | eof
  | bitOperator | apostrophe | backtick | semicolon | invalid | badEncoding | quotedNewline
  deriving Repr, DecidableEq

structure Position where
  line : Nat
  column : Nat
  deriving Repr, DecidableEq

/-- The half-open stretch of a file from `first` to `last`. -/
structure Range where
  first : Position
  last : Position
  deriving Repr, DecidableEq

/-- How a range reads in a message: `file:line,column-column`, or with both lines if it spans
several. -/
def Range.text (file : String) (r : Range) : String :=
  let start := s!"{file}:{r.first.line},{r.first.column}-"
  if r.first.line = r.last.line then s!"{start}{r.last.column}"
  else s!"{start}{r.last.line},{r.last.column}"

structure Token where
  kind : TokenKind
  text : String
  range : Range
  deriving Repr, DecidableEq

namespace Position

def start : Position := ⟨1, 1⟩

/-- The position after one cluster. -/
def step (p : Position) (cluster : List Char) : Position :=
  if cluster = ['\n'] || cluster = ['\r', '\n'] then ⟨p.line + 1, 1⟩ else ⟨p.line, p.column + 1⟩

/-- The position after a text. -/
def after (p : Position) (cs : List Char) : Position :=
  (Text.clusters cs).foldl step p

end Position

end CypherBlocks.Config
