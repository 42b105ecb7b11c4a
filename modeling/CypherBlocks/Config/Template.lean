import CypherBlocks.Config.Expr
import CypherBlocks.Config.Problem
import CypherBlocks.Text.Blank
import CypherBlocks.Text.Cluster

/-!
# Templates

A template is text with interpolations and directives in it.  First it is a flat list of parts;
escapes are resolved and blanks trimmed there.  Then the directives that belong together are joined
into expressions.
-/

namespace CypherBlocks.Config

/-! ## Text in quotes -/

def hexValue? (c : Char) : Option Nat :=
  if c.isDigit then some (c.toNat - '0'.toNat)
  else if 'a' ≤ c && c ≤ 'f' then some (c.toNat - 'a'.toNat + 10)
  else if 'A' ≤ c && c ≤ 'F' then some (c.toNat - 'A'.toNat + 10)
  else none

/-- The number written by hexadecimal digits. -/
def hexNumber? (cs : List Char) : Option Nat :=
  cs.foldl (fun acc c => do return (← acc) * 16 + (← hexValue? c)) (some 0)

/-- The character of a numbered escape with exactly `digits` digits, and the characters after it. -/
def numberedEscape? (digits : Nat) (cs : List Char) : Option Char :=
  let written := cs.take digits
  if written.length = digits then
    match hexNumber? written with
    | some n => if n.isValidChar then some (Char.ofNat n) else none
    | none => none
  else none

/-- Resolves the escapes of text in quotes: a backslash names a character, and a doubled dollar or
percent sign before a brace is a single one. -/
def unescape : List Char → List Char × List Problem
  | [] => ([], [])
  | '$' :: '$' :: '{' :: rest => let (cs, ps) := unescape rest; ('$' :: '{' :: cs, ps)
  | '%' :: '%' :: '{' :: rest => let (cs, ps) := unescape rest; ('%' :: '{' :: cs, ps)
  | '\\' :: c :: rest =>
    match c with
    | 'n' => let (cs, ps) := unescape rest; ('\n' :: cs, ps)
    | 'r' => let (cs, ps) := unescape rest; ('\r' :: cs, ps)
    | 't' => let (cs, ps) := unescape rest; ('\t' :: cs, ps)
    | '"' => let (cs, ps) := unescape rest; ('"' :: cs, ps)
    | '\\' => let (cs, ps) := unescape rest; ('\\' :: cs, ps)
    | 'u' =>
      match numberedEscape? 4 rest with
      | some d => let (cs, ps) := unescape (rest.drop 4); (d :: cs, ps)
      | none => let (cs, ps) := unescape rest; (cs, .invalidEscape :: ps)
    | 'U' =>
      match numberedEscape? 8 rest with
      | some d => let (cs, ps) := unescape (rest.drop 8); (d :: cs, ps)
      | none => let (cs, ps) := unescape rest; (cs, .invalidEscape :: ps)
    | _ => let (cs, ps) := unescape rest; ('\\' :: c :: cs, .invalidEscape :: ps)
  | c :: rest => let (cs, ps) := unescape rest; (c :: cs, ps)
termination_by cs => cs.length
decreasing_by all_goals simp only [List.length_cons, List.length_drop]; omega

/-- In a heredoc only the doubled signs are escapes. -/
def unescapeHeredoc : List Char → List Char
  | [] => []
  | '$' :: '$' :: '{' :: rest => '$' :: '{' :: unescapeHeredoc rest
  | '%' :: '%' :: '{' :: rest => '%' :: '{' :: unescapeHeredoc rest
  | c :: rest => c :: unescapeHeredoc rest

/-- The text that a text token stands for. -/
def tokenText (t : Token) : List Char × List Problem :=
  if t.kind = .quotedText then unescape t.text.toList else (unescapeHeredoc t.text.toList, [])

/-! ## Parts -/

inductive EndMark where
  | otherwise | endIf | endFor
  deriving Repr, DecidableEq

def EndMark.keyword : EndMark → String
  | .otherwise => "else"
  | .endIf => "endif"
  | .endFor => "endfor"

inductive Part where
  | text (cs : List Char)
  | value (e : Expr)
  | ifMark (condition : Expr)
  | forMark (key : Option String) (name : String) (source : Expr)
  | endMark (mark : EndMark)

/-- Removes the blanks at the end of a list of parts if it ends with text. -/
def trimLast (parts : List Part) : List Part :=
  match parts.reverse with
  | .text cs :: before =>
    (Part.text (cs.reverse.dropWhile Text.isBlankChar).reverse :: before).reverse
  | _ => parts

/-! ## Indented heredocs -/

def endsWithNewline (cs : List Char) : Bool := cs.getLast? == some '\n'

/-- The indentation of text at the start of a line; a blank line has none that counts. -/
def indentation? (cs : List Char) : Option Nat :=
  if cs.all Text.isBlankChar && endsWithNewline cs then none
  else some (Text.clusters (cs.takeWhile Text.isBlankChar)).length

/-- The indentations of the lines of a template. -/
def indentations : Bool → List Part → List Nat
  | _, [] => []
  | lineStart, .text cs :: rest =>
    (if lineStart then (indentation? cs).toList else []) ++ indentations (endsWithNewline cs) rest
  | lineStart, _ :: rest => (if lineStart then [0] else []) ++ indentations false rest

def dropClusters (n : Nat) (cs : List Char) : List Char := ((Text.clusters cs).drop n).flatten

/-- Removes `n` columns at the start of every line that is not blank. -/
def outdentBy (n : Nat) : Bool → List Part → List Part
  | _, [] => []
  | lineStart, .text cs :: rest =>
    let kept := if lineStart && (indentation? cs).isSome then dropClusters n cs else cs
    .text kept :: outdentBy n (endsWithNewline cs) rest
  | _, p :: rest => p :: outdentBy n false rest

/-- Removes the indentation that all lines share. -/
def outdent (parts : List Part) : List Part :=
  match indentations true parts with
  | [] => parts
  | n :: ns => outdentBy (ns.foldl min n) true parts

/-! ## Expressions -/

/-- Joins texts that follow each other. -/
def joinTexts : List Part → List Part
  | [] => []
  | .text cs :: rest =>
    match joinTexts rest with
    | .text ds :: rest' => .text (cs ++ ds) :: rest'
    | rest' => .text cs :: rest'
  | p :: rest => p :: joinTexts rest

def textExpr (cs : List Char) : Expr := .literal (.text (String.ofList cs))

/-- The content of a directive; nothing is the empty text. -/
def contentExpr : List Expr → Expr
  | [] => .template [textExpr []]
  | es => .template es

def placeholder : Expr := .literal .unknown

mutual

/-- One expression, with all that belongs to a directive, and the parts after it. -/
def partExpr : Nat → Part → List Part → Expr × List Problem × List Part
  | 0, _, rest => (placeholder, [], rest)
  | fuel + 1, p, rest =>
    match p with
    | .text cs => (textExpr cs, [], rest)
    | .value e => (e, [], rest)
    | .endMark mark => (placeholder, [.unexpectedDirective mark.keyword], rest)
    | .ifMark condition => ifExpr fuel condition false [] [] [] rest
    | .forMark key name source => forExpr fuel key name source [] [] rest

/-- The branches of an `if` up to its end. The expressions read so far are reversed. -/
def ifExpr :
    Nat → Expr → Bool → List Expr → List Expr → List Problem → List Part →
      Expr × List Problem × List Part
  | 0, _, _, _, _, problems, rest => (placeholder, problems, rest)
  | _ + 1, _, _, _, _, problems, [] => (placeholder, problems ++ [.unexpectedTemplateEnd], [])
  | fuel + 1, condition, inElse, yes, no, problems, .endMark mark :: rest =>
    match mark with
    | .endIf =>
      (.conditional condition (contentExpr yes.reverse) (contentExpr no.reverse), problems, rest)
    | .otherwise =>
      if inElse then (placeholder, problems ++ [.unexpectedDirective mark.keyword], rest)
      else ifExpr fuel condition true yes no problems rest
    | .endFor => (placeholder, problems ++ [.unexpectedDirective mark.keyword], rest)
  | fuel + 1, condition, inElse, yes, no, problems, p :: rest =>
    let (e, more, rest) := partExpr fuel p rest
    if inElse then ifExpr fuel condition inElse yes (e :: no) (problems ++ more) rest
    else ifExpr fuel condition inElse (e :: yes) no (problems ++ more) rest

/-- The content of a `for` up to its end. -/
def forExpr :
    Nat → Option String → String → Expr → List Expr → List Problem → List Part →
      Expr × List Problem × List Part
  | 0, _, _, _, _, problems, rest => (placeholder, problems, rest)
  | _ + 1, _, _, _, _, problems, [] => (placeholder, problems ++ [.unexpectedTemplateEnd], [])
  | _ + 1, key, name, source, content, problems, .endMark mark :: rest =>
    match mark with
    | .endFor =>
      (.join (.forTuple key name source (contentExpr content.reverse) (.literal (.bool true))),
        problems, rest)
    | _ => (placeholder, problems ++ [.unexpectedDirective mark.keyword], rest)
  | fuel + 1, key, name, source, content, problems, p :: rest =>
    let (e, more, rest) := partExpr fuel p rest
    forExpr fuel key name source (e :: content) (problems ++ more) rest

end

def partsExprs : Nat → List Part → List Expr × List Problem
  | 0, _ => ([], [])
  | _ + 1, [] => ([], [])
  | fuel + 1, p :: rest =>
    let (e, problems, rest) := partExpr fuel p rest
    let (es, more) := partsExprs fuel rest
    (e :: es, problems ++ more)

/-- The expression of a template. A lone interpolation is its value. -/
def templateExpr (flush : Bool) (parts : List Part) : Expr × List Problem :=
  let parts := if parts.isEmpty then [.text []] else parts
  let parts := joinTexts (if flush then outdent parts else parts)
  let (es, problems) := partsExprs (3 * parts.length + 3) parts
  match parts, es with
  | [.value _], [e] => (.interpolation e, problems)
  | _, _ => (.template es, problems)

end CypherBlocks.Config
