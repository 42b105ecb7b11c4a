import CypherBlocks.Config.Lexer
import CypherBlocks.Config.Parser.Expression

/-!
# Parsing bodies and files

A body is a list of arguments and blocks, one per line; a block with a single argument may stand on
one line.  A file is a body.
-/

namespace CypherBlocks.Config

open Parse

/-- The text of a label in quotes, read after the opening quote. -/
def parseLabel : Nat → List Char → List Problem → Parse (Reported String)
  | 0, cs, ps => pure (String.ofList cs, ps)
  | fuel + 1, cs, ps => do
    let t ← read
    match t.kind with
    | .closeQuote => return (String.ofList cs, ps)
    | .quotedText =>
      let (more, ps1) := tokenText t
      parseLabel fuel (cs ++ more) (ps ++ ps1)
    | .openInterpolation | .openDirective =>
      recover .closeSequence
      parseLabel fuel cs (ps ++ [.invalidTextLiteral])
    | .eof => return (String.ofList cs, ps ++ [.unterminatedTextLiteral])
    | _ =>
      recover .closeQuote
      return (String.ofList cs, ps ++ [.invalidTextLiteral])

/-- The labels of a block and its opening brace, or nothing if there is none. -/
def parseLabels : Nat → List String → List Problem → Parse (Reported (Option (List String)))
  | 0, labels, ps => pure (some labels, ps)
  | fuel + 1, labels, ps => do
    let t ← peek
    match t.kind with
    | .openBrace =>
      let _ ← read
      return (some labels, ps)
    | .openQuote =>
      let _ ← read
      let (label, ps1) ← parseLabel fuel [] []
      parseLabels fuel (labels ++ [label]) (ps ++ ps1)
    | .identifier =>
      let _ ← read
      parseLabels fuel (labels ++ [t.text]) ps
    | kind =>
      let ps1 ← if kind = .assign || kind = .newline then pure [.invalidBlock]
        else unlessRecovering .invalidBlock
      recoverAfterItem
      return (none, ps ++ ps1)

/-- The value of an argument, read from its equals sign on. -/
def parseAttribute (fuel : Nat) (name : Token) (onOneLine : Bool) : Parse (Reported Attribute) := do
  let _ ← read
  let (e, ps) ← parseExpr fuel
  let argument : Attribute := ⟨name.text, e, ⟨name.range.first, (← get).done⟩⟩
  if ← isAstray ps then
    recoverAfterItem
    return (argument, ps)
  if onOneLine then return (argument, ps)
  match ← peekKind with
  | .newline | .eof =>
    let _ ← read
    return (argument, ps)
  | kind =>
    let ps1 ← unlessRecovering (if kind = .comma then .commaAfterArgument
      else .noNewlineAfterArgument)
    recoverAfterItem
    return (argument, ps ++ ps1)

/-- The one argument of a block on one line. -/
def parseOneArgument (fuel : Nat) : Parse (Reported (List Attribute)) := do
  let name ← read
  if name.kind ≠ .identifier then
    recoverAfterItem
    return ([], [.itemRequired])
  match ← peekKind with
  | .assign =>
    let (argument, ps) ← parseAttribute fuel name true
    return ([argument], ps)
  | .openQuote | .openBrace | .identifier =>
    recoverAfterItem
    return ([], [.argumentRequired])
  | _ =>
    recoverAfterItem
    return ([], [.itemRequired])

/-- The closing brace of a block on one line. -/
def closeOneLine : Parse (List Problem) := do
  match ← peekKind with
  | .closeBrace =>
    let _ ← read
    return []
  | .comma | .newline =>
    recover .closeBrace
    return [.invalidOneLineBlock]
  | kind =>
    let ps ← unlessRecovering (if kind = .eof then .unclosedBlock else .invalidOneLineBlock)
    recover .closeBrace
    return ps

/-- A block ends its line. -/
def endBlockLine : Parse (List Problem) := do
  match ← peekKind with
  | .newline | .eof =>
    let _ ← read
    return []
  | _ =>
    let ps ← unlessRecovering .noNewlineAfterBlock
    recoverAfterItem
    return ps

/-- What a line of a body holds. -/
inductive Item where
  | argument (a : Attribute)
  | block (b : Block)
  | none

mutual

def parseBody : Nat → TokenKind → Body → List Problem → Parse (Reported Body)
  | 0, _, body, ps => pure (body, ps)
  | fuel + 1, closer, body, ps => do
    let kind ← peekKind
    if kind = closer then
      let _ ← read
      return (body, ps)
    match kind with
    | .newline =>
      let _ ← read
      parseBody fuel closer body ps
    | .identifier =>
      let (item, ps1) ← parseItem fuel
      match item with
      | .argument a =>
        if body.attributes.any (·.name = a.name) then
          parseBody fuel closer body (ps ++ ps1 ++ [.attributeRedefined])
        else parseBody fuel closer { body with attributes := body.attributes ++ [a] } (ps ++ ps1)
      | .block b => parseBody fuel closer { body with blocks := body.blocks ++ [b] } (ps ++ ps1)
      | .none => parseBody fuel closer body (ps ++ ps1)
    | _ =>
      let _ ← read
      let ps1 ← unlessRecovering
        (match kind with
          | .openQuote => .invalidArgumentName
          | .eof => .unclosedBlock
          | _ => .itemRequired)
      recover closer
      return (body, ps ++ ps1)

def parseItem : Nat → Parse (Reported Item)
  | 0 => pure (.none, [])
  | fuel + 1 => do
    let name ← read
    match ← peekKind with
    | .assign =>
      let (a, ps) ← parseAttribute fuel name false
      return (.argument a, ps)
    | .openQuote | .openBrace | .identifier =>
      let (b, ps) ← parseBlock fuel name.text
      return (.block b, ps)
    | _ =>
      recoverAfterItem
      return (.none, [.itemRequired])

def parseBlock : Nat → String → Parse (Reported Block)
  | 0, kind => pure (.mk kind [] [] [], [])
  | fuel + 1, kind => do
    let (labels, ps) ← parseLabels fuel [] []
    match labels with
    | none => return (.mk kind [] [] [], ps)
    | some labels =>
      match ← peekKind with
      | .newline | .eof | .closeBrace =>
        let (body, ps1) ← parseBody fuel .closeBrace ⟨[], []⟩ []
        let ps2 ← endBlockLine
        return (.mk kind labels body.attributes body.blocks, ps ++ ps1 ++ ps2)
      | _ =>
        let (attributes, ps1) ← parseOneArgument fuel
        let ps2 ← closeOneLine
        let ps3 ← endBlockLine
        return (.mk kind labels attributes [], ps ++ ps2 ++ ps1 ++ ps3)

end

/-- What is wrong with a token in itself. -/
def tokenProblem? (t : Token) : Option Problem :=
  match t.kind with
  | .bitOperator => some .unsupportedOperator
  | .apostrophe | .backtick | .semicolon | .invalid => some .invalidCharacter
  | .badEncoding => some .invalidEncoding
  | .quotedNewline => some .multiLineString
  | _ => none

/-- Calls nest at most so deep for each token. -/
def fuelPerToken : Nat := 16

/-- The body that a file's symbols stand for, and the problems found in it, those of its tokens
first. -/
def parseFile (s : List Text.Symbol) : Reported Body :=
  let ts := tokens s
  let fuel := fuelPerToken * (ts.length + 2)
  let ((body, ps), _) := (parseBody fuel .eof ⟨[], []⟩ []).run (Cursor.ofTokens ts)
  (body, ts.filterMap tokenProblem? ++ ps)

end CypherBlocks.Config
