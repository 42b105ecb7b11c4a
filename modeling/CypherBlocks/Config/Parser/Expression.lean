import CypherBlocks.Config.Cursor
import CypherBlocks.Config.Template

/-!
# Parsing expressions

Recursive descent over the tokens, one function per construct.  Every function takes the fuel of its
call chain, which the number of tokens bounds.
-/

namespace CypherBlocks.Config

open Parse

/-- The operators of each level, the loosest first; all of them group to the left. -/
def operatorLevels : List (List (TokenKind × BinaryOp)) :=
  [[(.either, .either)],
   [(.both, .both)],
   [(.equal, .equal), (.notEqual, .notEqual)],
   [(.greater, .greater), (.greaterEqual, .greaterEqual), (.less, .less), (.lessEqual, .lessEqual)],
   [(.plus, .add), (.minus, .subtract)],
   [(.star, .multiply), (.slash, .divide), (.percent, .remainder)]]

/-- Adds a step to an expression; steps that follow each other are one path. -/
def addStep (e : Expr) (s : Step) : Expr :=
  match e with
  | .steps source steps => .steps source (steps ++ [s])
  | _ => .steps e [s]

/-- A key that is written out. -/
def literalKey? : Expr → Option Literal
  | .literal l => some l
  | .template [.literal (.text s)] => some (.text s)
  | _ => none

def addIndex (e key : Expr) : Expr :=
  match literalKey? key with
  | some l => addStep e (.index l)
  | none => .index e key

/-- A bare name as an object key stands for itself; a path is refused, since it could be meant
either way. -/
def objectKey (inParens : Bool) (key : Expr) : Expr :=
  if inParens then key
  else
    match key with
    | .variable name => .literal (.text name)
    | .literal (.bool true) => .literal (.text "true")
    | .literal (.bool false) => .literal (.text "false")
    | .literal .null => .literal (.text "null")
    | .steps (.variable _) _ => .ambiguousKey
    | e => e

def numberLiteral (t : Token) : Reported Literal :=
  match Binary.parse? t.text with
  | some n => (.number n, [])
  | none => (.unknown, [.invalidNumber])

def isKeyword (word : String) (t : Token) : Bool := t.kind = .identifier && t.text = word

def closesWithTilde (t : Token) : Bool := t.text = "~\x7d"

def opensWithTilde (t : Token) : Bool := t.text.toList.getLast? == some '~'

/-- Parsing went astray if it reported problems and is recovering. -/
def isAstray (problems : List Problem) : Parse Bool := do
  return (← isRecovering) && !problems.isEmpty

mutual

def parseExpr : Nat → Parse (Reported Expr)
  | 0 => pure (placeholder, [])
  | fuel + 1 => do
    let (condition, ps) ← parseLevel fuel operatorLevels
    if ← isAstray ps then return (condition, ps)
    if (← peekKind) ≠ .question then return (condition, ps)
    let _ ← read
    let (yes, ps1) ← parseExpr fuel
    if ← isAstray ps1 then return (condition, ps ++ ps1)
    if (← peekKind) ≠ .colon then return (condition, ps ++ ps1 ++ [.noFalseBranch])
    let _ ← read
    let (no, ps2) ← parseExpr fuel
    return (.conditional condition yes no, ps ++ ps1 ++ ps2)

def parseLevel : Nat → List (List (TokenKind × BinaryOp)) → Parse (Reported Expr)
  | 0, _ => pure (placeholder, [])
  | fuel + 1, [] => parsePath fuel
  | fuel + 1, ops :: tighter => do
    let (left, ps) ← parseLevel fuel tighter
    if ← isAstray ps then return (left, ps)
    parseOperands fuel ops tighter left ps

def parseOperands :
    Nat → List (TokenKind × BinaryOp) → List (List (TokenKind × BinaryOp)) → Expr → List Problem →
    Parse (Reported Expr)
  | 0, _, _, left, ps => pure (left, ps)
  | fuel + 1, ops, tighter, left, ps => do
    match ops.lookup (← peekKind) with
    | none => return (left, ps)
    | some op =>
      let _ ← read
      let (right, ps1) ← parseLevel fuel tighter
      if ← isAstray ps1 then return (left, ps ++ ps1)
      parseOperands fuel ops tighter (.binary op left right) (ps ++ ps1)

/-- A term and the steps into it. -/
def parsePath : Nat → Parse (Reported Expr)
  | 0 => pure (placeholder, [])
  | fuel + 1 => do
    let (e, ps) ← parseTerm fuel
    let (e, ps1) ← parseSteps fuel e
    return (e, ps ++ ps1)

def parseSteps : Nat → Expr → Parse (Reported Expr)
  | 0, e => pure (e, [])
  | fuel + 1, e => do
    match ← peekKind with
    | .dot =>
      let _ ← read
      match ← peekKind with
      | .identifier =>
        let name ← read
        parseSteps fuel (addStep e (.named name.text))
      | .number =>
        let (key, ps) ← parseLegacyIndex
        let (e, ps1) ← parseSteps fuel (addStep e (.index key))
        return (e, ps ++ ps1)
      | .star =>
        let _ ← read
        let (each, ps) ← parseAttributeSplat fuel .item
        let (e, ps1) ← parseSteps fuel (.splat e each)
        return (e, ps ++ ps1)
      | _ =>
        startRecovery
        return (e, [.invalidAttributeName])
    | .openBracket =>
      let _ ← read
      if (← peekKind) = .star then
        let _ ← read
        let closer ← read
        let ps ← if closer.kind = .closeBracket then pure [] else do
          let ps ← unlessRecovering .splatNotClosed
          recover .closeBracket
          pure ps
        let (each, ps1) ← parseSteps fuel .item
        let (e, ps2) ← parseSteps fuel (.splat e each)
        return (e, ps ++ ps1 ++ ps2)
      else
        let (key, ps) ← withNewlines false (do
          let (key, ps) ← parseExpr fuel
          if ← isAstray ps then
            recover .closeBracket
            return (key, ps)
          let closer ← read
          if closer.kind = .closeBracket then return (key, ps)
          let ps1 ← unlessRecovering .indexNotClosed
          recover .closeBracket
          return (key, ps ++ ps1))
        let (e, ps1) ← parseSteps fuel (addIndex e key)
        return (e, ps ++ ps1)
    | _ => return (e, [])

/-- An index written as a number after a dot. -/
def parseLegacyIndex : Parse (Reported Literal) := do
  let t ← read
  if t.text.toList.contains '.' then return (.unknown, [.invalidLegacyIndex])
  return numberLiteral t

/-- The names and numbers after a splat of attributes. -/
def parseAttributeSplat : Nat → Expr → Parse (Reported Expr)
  | 0, e => pure (e, [])
  | fuel + 1, e => do
    if (← peekKind) ≠ .dot then return (e, [])
    let _ ← read
    match ← peekKind with
    | .number =>
      let (key, ps) ← parseLegacyIndex
      let (e, ps1) ← parseAttributeSplat fuel (addStep e (.index key))
      return (e, ps ++ ps1)
    | .identifier =>
      let name ← read
      parseAttributeSplat fuel (addStep e (.named name.text))
    | kind =>
      let ps ← unlessRecovering (if kind = .star then .nestedSplat else .invalidAttributeName)
      startRecovery
      return (e, ps)

def parseTerm : Nat → Parse (Reported Expr)
  | 0 => pure (placeholder, [])
  | fuel + 1 => do
    match ← peekKind with
    | .openParen =>
      let _ ← read
      withNewlines false (do
        let (e, ps) ← parseExpr fuel
        if !ps.isEmpty then
          recover .closeParen
          return (e, ps)
        let ps ← if (← peekKind) = .closeParen then pure [] else do
          startRecovery
          pure [.unbalancedParentheses]
        let _ ← read
        return (e, ps))
    | .number =>
      let t ← read
      let (l, ps) := numberLiteral t
      return (.literal l, ps)
    | .identifier =>
      let t ← read
      match ← peekKind with
      | .openParen | .doubleColon => parseCall fuel
      | _ =>
        match t.text with
        | "true" => return (.literal (.bool true), [])
        | "false" => return (.literal (.bool false), [])
        | "null" => return (.literal .null, [])
        | name => return (.variable name, [])
    | .openQuote =>
      let _ ← read
      parseTemplate fuel .closeQuote false
    | .openHeredoc =>
      let t ← read
      parseTemplate fuel .closeHeredoc ("<<-".isPrefixOf t.text)
    | .minus =>
      let _ ← read
      let (e, ps) ← parsePath fuel
      return (.unary .negate e, ps)
    | .bang =>
      let _ ← read
      let (e, ps) ← parsePath fuel
      return (.unary .not e, ps)
    | .openBracket =>
      let _ ← read
      withNewlines false (do
        if isKeyword "for" (← peek) then parseFor fuel false
        else
          let (items, ps) ← parseItems fuel
          return (.tuple items, ps))
    | .openBrace =>
      let _ ← read
      if isKeyword "for" (← withNewlines false peek) then parseFor fuel true
      else
        withNewlines true (do
          let (items, ps) ← parseEntries fuel
          return (.object items, ps))
    | _ =>
      let ps ← unlessRecovering .invalidExpression
      startRecovery
      return (placeholder, ps)

/-- The rest of a call after the first part of the function's name. No function can be called, so
only its form matters. -/
def parseCall : Nat → Parse (Reported Expr)
  | 0 => pure (.call, [])
  | fuel + 1 => do
    if (← read).kind = .openParen then
      let ps ← withNewlines false (parseArguments fuel)
      return (.call, ps)
    if (← read).kind ≠ .identifier then
      startRecovery
      return (.call, [.noFunctionName])
    match ← peekKind with
    | .openParen | .doubleColon => parseCall fuel
    | _ =>
      startRecovery
      return (.call, [.noOpenParenthesis])

def parseArguments : Nat → Parse (List Problem)
  | 0 => pure []
  | fuel + 1 => do
    if (← peekKind) = .closeParen then
      let _ ← read
      return []
    let (_, ps) ← parseExpr fuel
    if ← isAstray ps then
      recover .closeParen
      return ps
    match (← read).kind with
    | .closeParen => return ps
    | .comma =>
      let ps1 ← parseArguments fuel
      return ps ++ ps1
    | .ellipsis =>
      if (← peekKind) = .closeParen then
        let _ ← read
        return ps
      let ps1 ← unlessRecovering .noCloseParenthesis
      recover .closeParen
      return ps ++ ps1
    | .eof =>
      recover .closeParen
      return ps ++ [.unterminatedCall]
    | _ =>
      recover .closeParen
      return ps ++ [.noArgumentSeparator]

/-- The items of a tuple and its closing bracket. -/
def parseItems : Nat → Parse (Reported (List Expr))
  | 0 => pure ([], [])
  | fuel + 1 => do
    if (← peekKind) = .closeBracket then
      let _ ← read
      return ([], [])
    let (e, ps) ← parseExpr fuel
    if ← isAstray ps then
      recover .closeBracket
      return ([e], ps)
    match ← peekKind with
    | .closeBracket =>
      let _ ← read
      return ([e], ps)
    | .comma =>
      let _ ← read
      let (es, ps1) ← parseItems fuel
      return (e :: es, ps ++ ps1)
    | kind =>
      let ps1 ← unlessRecovering (if kind = .eof then .unterminatedTuple else .noItemSeparator)
      recover .closeBracket
      return ([e], ps ++ ps1)

/-- The entries of an object and its closing brace. -/
def parseEntries : Nat → Parse (Reported (List (Expr × Expr)))
  | 0 => pure ([], [])
  | fuel + 1 => do
    match ← peekKind with
    | .newline =>
      let _ ← read
      parseEntries fuel
    | .closeBrace =>
      let _ ← read
      return ([], [])
    | first =>
      let (key, ps) ← parseExpr fuel
      if ← isAstray ps then
        recover .closeBrace
        return ([], ps)
      let kind ← peekKind
      if kind ≠ .assign && kind ≠ .colon then
        let ps1 ← unlessRecovering (if kind = .newline || kind = .comma then .noAttributeValue
          else .noKeySeparator)
        recover .closeBrace
        return ([], ps ++ ps1)
      let _ ← read
      let (value, ps1) ← parseExpr fuel
      if ← isAstray ps1 then
        recover .closeBrace
        return ([], ps ++ ps1)
      let entry := (objectKey (first = .openParen) key, value)
      match ← peekKind with
      | .closeBrace =>
        let _ ← read
        return ([entry], ps ++ ps1)
      | .comma | .newline =>
        let _ ← read
        let (entries, ps2) ← parseEntries fuel
        return (entry :: entries, ps ++ ps1 ++ ps2)
      | kind =>
        let ps2 ← unlessRecovering (if kind = .eof then .unterminatedObject
          else .noAttributeSeparator)
        recover .closeBrace
        return ([entry], ps ++ ps1 ++ ps2)

/-- The names that a `for` binds and the word `in`. -/
def parseForNames : Parse (Option (Option String × String)) := do
  if (← peekKind) ≠ .identifier then return none
  let first ← read
  if (← peekKind) = .comma then
    let _ ← read
    if (← peekKind) ≠ .identifier then return none
    let second ← read
    if !isKeyword "in" (← peek) then return none
    let _ ← read
    return some (some first.text, second.text)
  if !isKeyword "in" (← peek) then return none
  let _ ← read
  return some (none, first.text)

/-- A `for` in brackets makes a tuple, in braces an object. -/
def parseFor : Nat → Bool → Parse (Reported Expr)
  | 0, _ => pure (placeholder, [])
  | fuel + 1, inBraces => withNewlines false (do
    let closer := if inBraces then TokenKind.closeBrace else .closeBracket
    let _ ← read
    match ← parseForNames with
    | none =>
      let ps ← unlessRecovering .invalidFor
      recover closer
      return (placeholder, ps)
    | some (key, name) =>
      let (source, ps) ← parseExpr fuel
      if ← isAstray ps then
        recover closer
        return (placeholder, ps)
      if (← peekKind) ≠ .colon then
        let ps1 ← unlessRecovering .invalidFor
        recover closer
        return (placeholder, ps ++ ps1)
      let _ ← read
      let (first, ps1) ← parseExpr fuel
      let (second, ps2) ← (do
        if (← peekKind) = .fatArrow then
          let _ ← read
          let (e, ps2) ← parseExpr fuel
          return (some e, ps2)
        else return (none, []))
      if ← isAstray (ps1 ++ ps2) then
        recover closer
        return (placeholder, ps ++ ps1 ++ ps2)
      let grouped ← (do
        if (← peekKind) = .ellipsis then
          let _ ← read
          return true
        else return false)
      let (condition, ps3) ← (do
        if isKeyword "if" (← peek) then
          let _ ← read
          parseExpr fuel
        else return (.literal (.bool true), []))
      if ← isAstray ps3 then
        recover closer
        return (placeholder, ps ++ ps1 ++ ps2 ++ ps3)
      let ps4 ← (do
        if (← peekKind) = closer then
          let _ ← read
          return []
        else
          let ps4 ← unlessRecovering .invalidFor
          recover closer
          return ps4)
      let before := ps ++ ps1 ++ ps2 ++ ps3 ++ ps4
      if inBraces then
        match second with
        | some value => return (.forObject key name source first value condition grouped, before)
        | none => return (placeholder, before ++ [.invalidFor])
      else if second.isSome || grouped then return (placeholder, before ++ [.invalidFor])
      else return (.forTuple key name source first condition, before))

/-- A template up to its closing token. -/
def parseTemplate : Nat → TokenKind → Bool → Parse (Reported Expr)
  | 0, _, _ => pure (placeholder, [])
  | fuel + 1, closer, flush => do
    let (parts, ps) ← parseParts fuel closer [] false false []
    let (e, ps1) := templateExpr flush parts
    return (e, ps ++ ps1)

/-- The parts of a template. `trimNext` says that a tilde just before trims the next text,
`trimmable` that the last part is text which a tilde may trim. -/
def parseParts :
    Nat → TokenKind → List Part → Bool → Bool → List Problem → Parse (Reported (List Part))
  | 0, _, parts, _, _, ps => pure (parts, ps)
  | fuel + 1, closer, parts, trimNext, trimmable, ps => do
    let t ← read
    if t.kind = closer then return (parts, ps)
    let trimmed := if trimmable && opensWithTilde t then trimLast parts else parts
    match t.kind with
    | .quotedText | .heredocText =>
      let (cs, ps1) := tokenText t
      let cs := if trimNext then cs.dropWhile Text.isBlankChar else cs
      parseParts fuel closer (parts ++ [.text cs]) false true (ps ++ ps1)
    | .openInterpolation =>
      let (e, tilde, ps1) ← withNewlines false (do
        let (e, ps1) ← parseExpr fuel
        let t ← peek
        if t.kind = .closeSequence then
          let _ ← read
          return (e, closesWithTilde t, ps1)
        let unclosed :=
          t.kind = .eof || ((t.kind = .closeQuote || t.kind = .openQuote) && closer = .closeQuote)
        let ps2 ← unlessRecovering (if unclosed then .unclosedInterpolation
          else .extraAfterInterpolation)
        recover .closeSequence
        return (e, false, ps1 ++ ps2))
      parseParts fuel closer (trimmed ++ [.value e]) tilde false (ps ++ ps1)
    | .openDirective =>
      let (part, tilde, ps1) ← withNewlines false (parseDirective fuel)
      parseParts fuel closer (trimmed ++ part.toList) tilde false (ps ++ ps1)
    | _ =>
      let ps1 ← unlessRecovering .unterminatedTemplate
      recover closer
      return (parts, ps ++ ps1)

/-- A directive, and whether a tilde closes it. -/
def parseDirective : Nat → Parse (Option Part × Bool × List Problem)
  | 0 => pure (none, false, [])
  | fuel + 1 => do
    let word ← peek
    if word.kind ≠ .identifier then
      let ps ← unlessRecovering .invalidDirective
      recover .closeSequence
      return (none, false, ps)
    let _ ← read
    let (part, ps) ← (do
      match word.text with
      | "if" =>
        let (e, ps) ← parseExpr fuel
        return (some (.ifMark e), ps)
      | "else" => return (some (.endMark .otherwise), [])
      | "endif" => return (some (.endMark .endIf), [])
      | "endfor" => return (some (.endMark .endFor), [])
      | "for" =>
        match ← parseForNames with
        | none =>
          let ps ← unlessRecovering .invalidForDirective
          return (none, ps)
        | some (key, name) =>
          let (source, ps) ← parseExpr fuel
          return (some (.forMark key name source), ps)
      | _ =>
        let ps ← unlessRecovering .invalidDirectiveKeyword
        return (none, ps))
    match part with
    | none =>
      recover .closeSequence
      return (none, false, ps)
    | some part =>
      let t ← peek
      if t.kind = .closeSequence then
        let _ ← read
        return (some part, closesWithTilde t, ps)
      let ps1 ← unlessRecovering (.extraInMarker word.text)
      recover .closeSequence
      return (some part, false, ps ++ ps1)

end

end CypherBlocks.Config
