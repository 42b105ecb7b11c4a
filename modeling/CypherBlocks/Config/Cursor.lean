import CypherBlocks.Config.Problem
import CypherBlocks.Config.Token

/-!
# Reading tokens

A cursor stands before the next token.  Comments are never read; newlines are read only where they
mean something, which nested constructs switch on and off.  After a mistake the cursor is
recovering: tokens are dropped up to a point where parsing can go on, and what is found out of place
until then is not reported again.
-/

namespace CypherBlocks.Config

structure Cursor where
  rest : List Token
  /-- Where the token read last ends. -/
  done : Position
  /-- Whether newlines are read, innermost construct first. -/
  newlines : List Bool
  recovering : Bool

namespace Cursor

def ofTokens (tokens : List Token) : Cursor := ⟨tokens, Position.start, [true], false⟩

def endToken (p : Position) : Token := ⟨.eof, "", ⟨p, p⟩⟩

/-- A line comment ends its line. -/
def endsLine (t : Token) : Bool := t.text.toList.getLast? == some '\n'

/-- The next token and the tokens after it; the end of the file is never passed. -/
def nextToken (newlines : Bool) (p : Position) : List Token → Token × List Token
  | [] => (endToken p, [])
  | t :: rest =>
    match t.kind with
    | .eof => (t, t :: rest)
    | .comment =>
      if newlines && endsLine t then (⟨.newline, "\n", t.range⟩, rest)
      else nextToken newlines p rest
    | .newline => if newlines then (t, rest) else nextToken newlines p rest
    | _ => (t, rest)

def readsNewlines (c : Cursor) : Bool := c.newlines.head?.getD true

def next (c : Cursor) : Token × List Token := nextToken c.readsNewlines c.done c.rest

end Cursor

abbrev Parse := StateM Cursor

/-- A parse that also reports problems, in order. -/
abbrev Reported (α : Type) := α × List Problem

namespace Parse

def peek : Parse Token := do
  return (← get).next.1

def peekKind : Parse TokenKind := do
  return (← peek).kind

def read : Parse Token := do
  let c ← get
  let (t, rest) := c.next
  set { c with rest := rest, done := t.range.last }
  return t

def pushNewlines (reads : Bool) : Parse Unit :=
  modify fun c => { c with newlines := reads :: c.newlines }

def popNewlines : Parse Unit :=
  modify fun c => { c with newlines := c.newlines.drop 1 }

/-- Runs a parse that reads newlines or skips them. -/
def withNewlines {α : Type} (reads : Bool) (p : Parse α) : Parse α := do
  pushNewlines reads
  let a ← p
  popNewlines
  return a

def isRecovering : Parse Bool := do
  return (← get).recovering

def startRecovery : Parse Unit :=
  modify fun c => { c with recovering := true }

/-- A problem that is reported only if no earlier one is being recovered from. -/
def unlessRecovering (p : Problem) : Parse (List Problem) := do
  return if ← isRecovering then [] else [p]

/-- The token that opens what a token closes. -/
def openerOf : TokenKind → TokenKind
  | .closeBrace => .openBrace
  | .closeBracket => .openBracket
  | .closeParen => .openParen
  | .closeQuote => .openQuote
  | .closeHeredoc => .openHeredoc
  | .closeSequence => .openInterpolation
  | k => k

/-- Both kinds of template sequence open alike. -/
def openingKind : TokenKind → TokenKind
  | .openDirective => .openInterpolation
  | k => k

def skipTo (closer : TokenKind) : Nat → Nat → Parse Unit
  | 0, _ => pure ()
  | fuel + 1, depth => do
    let t ← read
    if openingKind t.kind = openerOf closer then skipTo closer fuel (depth + 1)
    else if t.kind = closer then
      if depth = 0 then pure () else skipTo closer fuel (depth - 1)
    else if t.kind = .eof then pure ()
    else skipTo closer fuel depth

/-- Drops tokens up to and with the closer that matches here. -/
def recover (closer : TokenKind) : Parse Unit := do
  startRecovery
  skipTo closer ((← get).rest.length + 1) 0

/-- The openers still open after a closer: those inside its own opener are dropped with it. -/
def closeUpTo (opener : TokenKind) (opened : List TokenKind) : List TokenKind :=
  (opened.dropWhile (· ≠ opener)).drop 1

def skipItem : Nat → List TokenKind → Parse Unit
  | 0, _ => pure ()
  | fuel + 1, opened => do
    let t ← read
    match t.kind with
    | .newline => if opened.isEmpty then pure () else skipItem fuel opened
    | .eof => pure ()
    | .openBrace | .openBracket | .openParen | .openQuote | .openHeredoc | .openInterpolation
    | .openDirective =>
      skipItem fuel (openingKind t.kind :: opened)
    | .closeBrace | .closeBracket | .closeParen | .closeQuote | .closeHeredoc | .closeSequence =>
      skipItem fuel (closeUpTo (openerOf t.kind) opened)
    | _ => skipItem fuel opened

/-- Drops the rest of an argument or block, up to the end of a line outside all brackets. -/
def recoverAfterItem : Parse Unit := do
  startRecovery
  skipItem ((← get).rest.length + 1) []

end Parse

end CypherBlocks.Config
