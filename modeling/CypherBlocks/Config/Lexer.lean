import CypherBlocks.Config.Token
import CypherBlocks.Text.Blank
import CypherBlocks.Text.Identifier
import CypherBlocks.Text.Utf8

/-!
# Cutting a configuration file into tokens

At each point the longest lexeme is taken.  What counts as one depends on the mode: code, a quoted
template or a heredoc; an interpolation returns to code until its closing brace.  A character that
fits no lexeme becomes an invalid token, so the tokens and the blanks between them always cover the
whole file.
-/

namespace CypherBlocks.Config

open Text (Symbol)

/-- What the lexer is inside of. Code within a template counts the braces that are open in it. -/
inductive LexMode where
  | code (braces : Option Nat)
  | quoted
  | heredoc (marker : List Char) (lineStart : Bool)
  deriving Repr, DecidableEq

/-- A stretch of symbols: a token, or blanks. -/
structure Lexeme where
  kind : Option TokenKind
  size : Nat
  deriving Repr, DecidableEq

/-- What one step found, and the modes after it. -/
structure Scanned where
  lexemes : List Lexeme
  modes : List LexMode

/-! ## Lengths of lexemes -/

def isBlank (s : Symbol) : Bool := s.satisfies fun c => c == ' ' || c == '\t'

def isLineChar (c : Char) : Bool := c == '\r' || c == '\n'

/-- The length of a line end at the front: one, two with a carriage return, or zero. -/
def lineEndLength : List Symbol → Nat
  | .char '\n' :: _ => 1
  | .char '\r' :: .char '\n' :: _ => 2
  | _ => 0

/-- A number goes on with digits, points and exponents but does not end in a point. `size` has been
read and `best` of it is a number. -/
def numberLengthFrom : List Symbol → Nat → Nat → Nat
  | .char c :: rest, size, best =>
    if c.isDigit then numberLengthFrom rest (size + 1) (size + 1)
    else if c = '.' then numberLengthFrom rest (size + 1) best
    else if c = 'e' || c = 'E' then
      match rest with
      | .char d :: rest' =>
        if d.isDigit then numberLengthFrom rest' (size + 2) (size + 2)
        else if d = '+' || d = '-' then
          match rest' with
          | .char f :: rest'' =>
            if f.isDigit then numberLengthFrom rest'' (size + 3) (size + 3) else best
          | _ => best
        else best
      | _ => best
    else best
  | _, _, best => best

def numberLength (s : List Symbol) : Nat :=
  match s with
  | .char c :: rest => if c.isDigit then numberLengthFrom rest 1 1 else 0
  | _ => 0

def identifierLength : List Symbol → Nat
  | .char c :: rest =>
    if Text.isIdentifierStart c then 1 + (rest.takeWhile (·.satisfies Text.isIdentifierRest)).length
    else 0
  | _ => 0

/-- A line comment takes its line feed along. -/
def lineCommentLength (s : List Symbol) : Nat :=
  let body := (s.takeWhile fun x => !x.is '\n').length
  if body < s.length then body + 1 else body

/-- The length of a block comment's inside with its end mark, if it ends. -/
def blockCommentLength : List Symbol → Option Nat
  | [] => none
  | .char '*' :: .char '/' :: _ => some 2
  | _ :: rest => (blockCommentLength rest).map (· + 1)

/-- A heredoc opens with `<<` or `<<-`, a marker and the end of the line. -/
def heredocOpening (s : List Symbol) : Option (List Char × Nat) :=
  match s with
  | .char '<' :: .char '<' :: rest =>
    let dash := if rest.head?.any (·.is '-') then 1 else 0
    let rest := rest.drop dash
    let n := identifierLength rest
    let eol := lineEndLength (rest.drop n)
    if n = 0 || eol = 0 then none else some (Text.charsOf (rest.take n), 2 + dash + n + eol)
  | _ => none

/-- Whether a symbol can stand in a template as it is. -/
def isTemplateSymbol : Symbol → Bool
  | .char c => !isLineChar c
  | .shaped _ => true
  | .stray _ => false

/-- Text in quotes, up to a quote, a dollar or percent sign or a line end; a backslash takes the
next symbol along. -/
def quotedTextLength : List Symbol → Nat
  | .char '\\' :: s :: rest => if isTemplateSymbol s then 2 + quotedTextLength rest else 0
  | .char '\\' :: [] => 0
  | s :: rest =>
    if isTemplateSymbol s && !(s.is '$' || s.is '%' || s.is '"') then
      1 + quotedTextLength rest else 0
  | [] => 0

/-- A plain stretch of a heredoc line. -/
def heredocTextLength (s : List Symbol) : Nat :=
  (s.takeWhile fun x => isTemplateSymbol x && !(x.is '$' || x.is '%')).length

/-! ## Steps -/

def oneToken (kind : TokenKind) (size : Nat) (modes : List LexMode) : Scanned :=
  ⟨[⟨some kind, size⟩], modes⟩

/-- One or two characters that make a token of their own. -/
def operator : List Symbol → Option (TokenKind × Nat)
  | .char '.' :: .char '.' :: .char '.' :: _ => some (.ellipsis, 3)
  | .char '=' :: .char '=' :: _ => some (.equal, 2)
  | .char '!' :: .char '=' :: _ => some (.notEqual, 2)
  | .char '>' :: .char '=' :: _ => some (.greaterEqual, 2)
  | .char '<' :: .char '=' :: _ => some (.lessEqual, 2)
  | .char '&' :: .char '&' :: _ => some (.both, 2)
  | .char '|' :: .char '|' :: _ => some (.either, 2)
  | .char ':' :: .char ':' :: _ => some (.doubleColon, 2)
  | .char '=' :: .char '>' :: _ => some (.fatArrow, 2)
  | .char c :: _ =>
    match c with
    | '[' => some (.openBracket, 1)
    | ']' => some (.closeBracket, 1)
    | '(' => some (.openParen, 1)
    | ')' => some (.closeParen, 1)
    | '.' => some (.dot, 1)
    | ',' => some (.comma, 1)
    | '*' => some (.star, 1)
    | '/' => some (.slash, 1)
    | '%' => some (.percent, 1)
    | '+' => some (.plus, 1)
    | '-' => some (.minus, 1)
    | '=' => some (.assign, 1)
    | '<' => some (.less, 1)
    | '>' => some (.greater, 1)
    | '!' => some (.bang, 1)
    | '?' => some (.question, 1)
    | ':' => some (.colon, 1)
    | '&' => some (.bitOperator, 1)
    | '|' => some (.bitOperator, 1)
    | '~' => some (.bitOperator, 1)
    | '^' => some (.bitOperator, 1)
    | ';' => some (.semicolon, 1)
    | '\x60' => some (.backtick, 1)
    | '\'' => some (.apostrophe, 1)
    | _ => none
  | _ => none

/-- A brace that closes code in a template ends the sequence; any other closes a brace of that
code. -/
def closeBraceIn (braces : Option Nat) (outer : List LexMode) (plain : TokenKind) (size : Nat) :
    Scanned :=
  match braces with
  | some 0 => oneToken .closeSequence size outer
  | some (n + 1) => oneToken plain size (.code (some n) :: outer)
  | none => oneToken plain size (.code none :: outer)

def scanCode (braces : Option Nat) (outer : List LexMode) (s : List Symbol) : Scanned :=
  let here := LexMode.code braces :: outer
  let blanks := (s.takeWhile isBlank).length
  let eol := lineEndLength s
  let number := numberLength s
  let name := identifierLength s
  if 0 < blanks then ⟨[⟨none, blanks⟩], here⟩
  else if 0 < eol then oneToken .newline eol here
  else if 0 < number then oneToken .number number here
  else if 0 < name then oneToken .identifier name here
  else
    match s with
    | .char '#' :: _ => oneToken .comment (lineCommentLength s) here
    | .char '/' :: .char '/' :: _ => oneToken .comment (lineCommentLength s) here
    | .char '/' :: .char '*' :: rest =>
      match blockCommentLength rest with
      | some n => oneToken .comment (n + 2) here
      | none => oneToken .slash 1 here
    | .char '{' :: _ => oneToken .openBrace 1 (.code (braces.map (· + 1)) :: outer)
    | .char '}' :: _ => closeBraceIn braces outer .closeBrace 1
    | .char '~' :: .char '}' :: _ => closeBraceIn braces outer .closeSequence 2
    | .char '"' :: _ => oneToken .openQuote 1 (.quoted :: here)
    | .stray _ :: _ => oneToken .badEncoding 1 here
    | _ =>
      match heredocOpening s with
      | some (marker, size) => oneToken .openHeredoc size (.heredoc marker true :: here)
      | none =>
        match operator s with
        | some (kind, size) => oneToken kind size here
        | none => oneToken .invalid 1 here

/-- The start of an interpolation or a directive in a template, a tilde included. -/
def sequenceOpening : List Symbol → Option (TokenKind × Nat)
  | .char '$' :: .char '{' :: .char '~' :: _ => some (.openInterpolation, 3)
  | .char '$' :: .char '{' :: _ => some (.openInterpolation, 2)
  | .char '%' :: .char '{' :: .char '~' :: _ => some (.openDirective, 3)
  | .char '%' :: .char '{' :: _ => some (.openDirective, 2)
  | _ => none

/-- A dollar or percent sign that opens no sequence: doubled before a brace it is an escape, else it
stands alone. The last symbol of the file cannot be told apart yet and is none. -/
def signLength : List Symbol → Nat
  | .char '$' :: .char '$' :: .char '{' :: .char '~' :: _ => 4
  | .char '$' :: .char '$' :: .char '{' :: _ => 3
  | .char '%' :: .char '%' :: .char '{' :: .char '~' :: _ => 4
  | .char '%' :: .char '%' :: .char '{' :: _ => 3
  | .char '$' :: _ :: _ => 1
  | .char '%' :: _ :: _ => 1
  | _ => 0

def scanQuoted (outer : List LexMode) (s : List Symbol) : Scanned :=
  let here := LexMode.quoted :: outer
  match sequenceOpening s with
  | some (kind, size) => oneToken kind size (.code (some 0) :: here)
  | none =>
    let sign := signLength s
    let text := quotedTextLength s
    let lines := (s.takeWhile (·.satisfies isLineChar)).length
    if 0 < sign then oneToken .quotedText sign here
    else if 0 < text then oneToken .quotedText text here
    else if 0 < lines then oneToken .quotedNewline lines here
    else
      match s with
      | .char '"' :: _ => oneToken .closeQuote 1 outer
      | .stray _ :: _ => oneToken .badEncoding 1 here
      | _ => oneToken .invalid 1 here

/-- A line that holds only the marker, blanks aside, ends the heredoc. -/
def isMarkerLine (marker : List Char) (line : List Symbol) : Bool :=
  let cs := Text.charsOf line
  ((cs.dropWhile Text.isBlankChar).reverse.dropWhile Text.isBlankChar).reverse == marker

def scanHeredoc (marker : List Char) (lineStart : Bool) (outer : List LexMode) (s : List Symbol) :
    Scanned :=
  let midLine := LexMode.heredoc marker false :: outer
  match sequenceOpening s with
  | some (kind, size) => oneToken kind size (.code (some 0) :: midLine)
  | none =>
    let sign := signLength s
    if 0 < sign then oneToken .heredocText sign midLine
    else
      let text := heredocTextLength s
      let eol := lineEndLength (s.drop text)
      if 0 < eol then
        if lineStart && isMarkerLine marker (s.take text) then
          ⟨[⟨some .closeHeredoc, text⟩, ⟨some .newline, eol⟩], outer⟩
        else oneToken .heredocText (text + eol) (.heredoc marker true :: outer)
      else if 0 < text then oneToken .heredocText text midLine
      else
        match s with
        | .stray _ :: _ => oneToken .badEncoding 1 (.heredoc marker lineStart :: outer)
        | _ => oneToken .invalid s.length outer

def scanStep (modes : List LexMode) (s : List Symbol) : Scanned :=
  match modes with
  | [] => scanCode none [] s
  | .code braces :: outer => scanCode braces outer s
  | .quoted :: outer => scanQuoted outer s
  | .heredoc marker lineStart :: outer => scanHeredoc marker lineStart outer s

/-! ## Tokens -/

/-- Gives each lexeme its text and position; blanks only move the column. -/
def place (p : Position) (s : List Symbol) : List Lexeme → List Token × Position
  | [] => ([], p)
  | ⟨none, n⟩ :: rest => place ⟨p.line, p.column + n⟩ (s.drop n) rest
  | ⟨some kind, n⟩ :: rest =>
    let cs := Text.charsOf (s.take n)
    let q := p.after cs
    let (tokens, r) := place q (s.drop n) rest
    (⟨kind, String.ofList cs, ⟨p, q⟩⟩ :: tokens, r)

/-- All tokens from a position on, with the end of the file as the last one. -/
def tokensFrom (modes : List LexMode) (p : Position) (s : List Symbol) : List Token :=
  if _h : s = [] then [⟨.eof, "", ⟨p, p⟩⟩]
  else
    let scanned := scanStep modes s
    let size := scanned.lexemes.foldl (fun n lexeme => n + lexeme.size) 0
    let (tokens, q) := place p s scanned.lexemes
    tokens ++ tokensFrom scanned.modes q (s.drop (if size = 0 then 1 else size))
termination_by s.length
decreasing_by
  have : 0 < s.length := List.length_pos_iff.mpr _h
  simp only [List.length_drop]
  split <;> omega

/-- A byte order mark at the front of a file is not part of its text. -/
def dropByteOrderMark : List Symbol → List Symbol
  | .char c :: rest => if c.toNat = 0xfeff then rest else .char c :: rest
  | s => s

/-- The tokens of a file. -/
def tokens (s : List Symbol) : List Token :=
  tokensFrom [.code none] Position.start (dropByteOrderMark s)

end CypherBlocks.Config
