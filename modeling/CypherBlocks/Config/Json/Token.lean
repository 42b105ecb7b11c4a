import CypherBlocks.Config.Token
import CypherBlocks.Text.Utf8

/-!
# Tokens of JSON text

Numbers, words and strings are cut out generously here and checked when they are read.  A character
that can start no token ends the text.  In columns a tab counts two, a carriage return nothing and a
grapheme cluster in a string one.
-/

namespace CypherBlocks.Config.Json

open Text (Symbol)

inductive TokenKind where
  | openBrace | closeBrace | openBracket | closeBracket | comma | colon | equals
  | text | number | word | invalid | eof
  deriving Repr, DecidableEq

structure Token where
  kind : TokenKind
  symbols : List Symbol
  range : Range
  deriving Repr, DecidableEq

def punctuation? : Symbol → Option TokenKind
  | .char '{' => some .openBrace
  | .char '}' => some .closeBrace
  | .char '[' => some .openBracket
  | .char ']' => some .closeBracket
  | .char ',' => some .comma
  | .char ':' => some .colon
  | .char '=' => some .equals
  | _ => none

def isSpace (s : Symbol) : Bool :=
  s.satisfies fun c => c == ' ' || c == '\t' || c == '\n' || c == '\r'

/-- The position after a space. -/
def afterSpace (p : Position) : Symbol → Position
  | .char '\n' => ⟨p.line + 1, 1⟩
  | .char '\r' => p
  | .char '\t' => ⟨p.line, p.column + 2⟩
  | _ => ⟨p.line, p.column + 1⟩

def startsNumber (c : Char) : Bool := c.isDigit || c == '-' || c == '+' || c == '.'

def continuesNumber (c : Char) : Bool := startsNumber c || c == 'e' || c == 'E'

def isWordChar (c : Char) : Bool := c.isAlpha || c == '_'

def isAscii (s : Symbol) : Bool := s.satisfies fun c => c.toNat < 0x80

/-- A stretch that holds the whole first cluster: beyond its first symbol a cluster has at most one
ASCII character, its base. -/
def clusterWindow : List Symbol → List Symbol
  | [] => []
  | s :: rest =>
    let before := rest.takeWhile (!isAscii ·)
    let after := rest.drop before.length
    s :: before ++ after.take 1 ++ (after.drop 1).takeWhile (!isAscii ·)

def symbolClass : Symbol → Text.ClusterClass
  | .char c => Text.clusterClass c
  | _ => Text.clusterClass Symbol.replacement

def firstClusterLength (s : List Symbol) : Nat :=
  max 1 (Text.clusterLength ((clusterWindow s).map symbolClass))

/-- The length and width of a string after its opening quote, up to its closing quote or a control
character. -/
def stringExtent (escaped : Bool) (s : List Symbol) (size width : Nat) : Nat × Nat :=
  match s with
  | [] => (size, width)
  | .char c :: rest =>
    if c = '\\' then stringExtent (!escaped) rest (size + 1) (width + 1)
    else if c = '"' then
      if escaped then stringExtent false rest (size + 1) (width + 1) else (size + 1, width + 1)
    else if c.toNat < 0x20 then (size, width)
    else
      let n := firstClusterLength (.char c :: rest)
      stringExtent false (rest.drop (n - 1)) (size + n) (width + 1)
  | x :: rest =>
    let n := firstClusterLength (x :: rest)
    stringExtent false (rest.drop (n - 1)) (size + n) (width + 1)
termination_by s.length
decreasing_by all_goals simp only [List.length_cons, List.length_drop]; omega

/-- The kind, length and width of the token at the front. -/
def lexeme (s : List Symbol) : TokenKind × Nat × Nat :=
  match s with
  | [] => (.eof, 0, 0)
  | x :: rest =>
    match punctuation? x with
    | some kind => (kind, 1, 1)
    | none =>
      if x.is '"' then
        let (size, width) := stringExtent false rest 1 1
        (.text, size, width)
      else if x.satisfies startsNumber then
        let n := (s.takeWhile (·.satisfies continuesNumber)).length
        (.number, n, n)
      else if x.satisfies isWordChar then
        let n := (s.takeWhile (·.satisfies isWordChar)).length
        (.word, n, n)
      else (.invalid, 1, 1)

def tokensFrom (p : Position) (s : List Symbol) : List Token :=
  match s with
  | [] => [⟨.eof, [], ⟨p, p⟩⟩]
  | x :: rest =>
    if isSpace x then tokensFrom (afterSpace p x) rest
    else
      let (kind, size, width) := lexeme (x :: rest)
      let q : Position := ⟨p.line, p.column + width⟩
      let token : Token := ⟨kind, (x :: rest).take size, ⟨p, q⟩⟩
      if kind = .invalid then [token, ⟨.eof, [], ⟨q, q⟩⟩]
      else token :: tokensFrom q (rest.drop (size - 1))
termination_by s.length
decreasing_by all_goals simp only [List.length_cons, List.length_drop]; omega

def tokens (s : List Symbol) : List Token := tokensFrom Position.start s

end CypherBlocks.Config.Json
