import CypherBlocks.Config.Json.Token
import CypherBlocks.Config.Problem
import CypherBlocks.Config.Template
import CypherBlocks.Config.Value
import CypherBlocks.Text.Normal

/-!
# JSON values

A node knows where it ends; a property also where its name begins, which gives the range of the
argument it stands for.  Reading stops at the first problem.
-/

namespace CypherBlocks.Config.Json

open Text (Symbol)

inductive Node where
  | null (last : Position)
  | bool (last : Position) (b : Bool)
  | number (last : Position) (n : Binary)
  | text (last : Position) (s : String)
  | array (last : Position) (items : List Node)
  | object (last : Position) (properties : List (String × Position × Node))
  deriving Repr

def Node.last : Node → Position
  | .null p | .bool p _ | .number p _ | .text p _ | .array p _ | .object p _ => p

/-! ## Strings -/

def isHighSurrogate (n : Nat) : Bool := 0xd800 ≤ n && n < 0xdc00

def isLowSurrogate (n : Nat) : Bool := 0xdc00 ≤ n && n < 0xe000

/-- The number of a four-digit escape. -/
def escapeNumber? (cs : List Char) : Option Nat :=
  if (cs.take 4).length = 4 then hexNumber? (cs.take 4) else none

/-- The number of a second surrogate written right here. -/
def lowSurrogate? (cs : List Char) : Option Nat :=
  match cs with
  | '\\' :: 'u' :: rest =>
    match escapeNumber? rest with
    | some n => if isLowSurrogate n then some n else none
    | none => none
  | _ => none

/-- The characters of a string without its quotes. A surrogate without its partner is no
character. -/
def unescapeText (cs : List Char) : Option (List Char) :=
  match cs with
  | [] => some []
  | '"' :: _ => none
  | '\\' :: c :: rest =>
    match c with
    | '"' => (unescapeText rest).map ('"' :: ·)
    | '\\' => (unescapeText rest).map ('\\' :: ·)
    | '/' => (unescapeText rest).map ('/' :: ·)
    | 'b' => (unescapeText rest).map (Char.ofNat 8 :: ·)
    | 'f' => (unescapeText rest).map (Char.ofNat 12 :: ·)
    | 'n' => (unescapeText rest).map ('\n' :: ·)
    | 'r' => (unescapeText rest).map ('\r' :: ·)
    | 't' => (unescapeText rest).map ('\t' :: ·)
    | 'u' =>
      match escapeNumber? rest with
      | none => none
      | some n =>
        if isHighSurrogate n then
          match lowSurrogate? (rest.drop 4) with
          | some m =>
            (unescapeText (rest.drop 10)).map
              (Char.ofNat (0x10000 + (n - 0xd800) * 0x400 + (m - 0xdc00)) :: ·)
          | none => (unescapeText (rest.drop 4)).map (Symbol.replacement :: ·)
        else if isLowSurrogate n then (unescapeText (rest.drop 4)).map (Symbol.replacement :: ·)
        else (unescapeText (rest.drop 4)).map (Char.ofNat n :: ·)
    | _ => none
  | ['\\'] => none
  | c :: rest => if c.toNat < 0x20 then none else (unescapeText rest).map (c :: ·)
termination_by cs.length
decreasing_by all_goals simp only [List.length_cons, List.length_drop]; omega

/-- The text of a string token, if it is well formed and closed. -/
def tokenText? (t : Token) : Option String :=
  match Text.charsOf t.symbols with
  | '"' :: cs =>
    if cs.getLast? = some '"' then (unescapeText cs.dropLast).map String.ofList else none
  | _ => none

/-! ## Numbers -/

def dropDigits (cs : List Char) : List Char := cs.dropWhile Char.isDigit

/-- Drops one or more digits. -/
def needDigits? (cs : List Char) : Option (List Char) :=
  match cs with
  | c :: rest => if c.isDigit then some (dropDigits rest) else none
  | [] => none

def dropWhole? : List Char → Option (List Char)
  | '0' :: rest => some rest
  | cs => needDigits? cs

def dropFraction? : List Char → Option (List Char)
  | '.' :: rest => needDigits? rest
  | cs => some cs

def dropExponent? (cs : List Char) : Option (List Char) :=
  match cs with
  | [] => some []
  | c :: rest =>
    if c = 'e' || c = 'E' then
      match rest with
      | d :: rest' => if d = '+' || d = '-' then needDigits? rest' else needDigits? rest
      | [] => none
    else some cs

/-- Whether a number is written as JSON wants it. -/
def isNumberText (cs : List Char) : Bool :=
  let cs := match cs with
    | '-' :: rest => rest
    | _ => cs
  (do dropExponent? (← dropFraction? (← dropWhole? cs))) == some []

def tokenNumber? (t : Token) : Option Binary :=
  let cs := Text.charsOf t.symbols
  if isNumberText cs then Binary.parse? (String.ofList cs) else none

/-! ## Values -/

def peekKind : List Token → TokenKind
  | [] => .eof
  | t :: _ => t.kind

mutual

/-- Reads a value and leaves the tokens after it. -/
def readValue : Nat → List Token → Except Problem (Node × List Token)
  | 0, _ => .error .noValue
  | _, [] => .error .noValue
  | fuel + 1, t :: rest =>
    match t.kind with
    | .openBrace =>
      match rest with
      | u :: rest' =>
        if u.kind = .closeBrace then .ok (.object u.range.last [], rest')
        else readProperties fuel [] rest
      | [] => .error .noValue
    | .openBracket =>
      match rest with
      | u :: rest' =>
        if u.kind = .closeBracket then .ok (.array u.range.last [], rest')
        else readItems fuel [] rest
      | [] => .error .noValue
    | .number =>
      match tokenNumber? t with
      | some n => .ok (.number t.range.last n, rest)
      | none => .error .invalidJsonNumber
    | .text =>
      match tokenText? t with
      | some s => .ok (.text t.range.last s, rest)
      | none => .error .invalidJsonText
    | .word =>
      match String.ofList (Text.charsOf t.symbols) with
      | "true" => .ok (.bool t.range.last true, rest)
      | "false" => .ok (.bool t.range.last false, rest)
      | "null" => .ok (.null t.range.last, rest)
      | _ => .error .invalidJsonKeyword
    | .closeBrace => .error .noJsonValue
    | .closeBracket => .error .noArrayElement
    | .eof => .error .noValue
    | _ => .error .invalidStart

/-- Reads the properties of an object, the first of which starts here; those read so far are
reversed. -/
def readProperties :
    Nat → List (String × Position × Node) → List Token → Except Problem (Node × List Token)
  | 0, _, _ => .error .noValue
  | fuel + 1, done, ts => do
    let start := (ts.head?.map (·.range.first)).getD Position.start
    let (key, rest) ← readValue fuel ts
    match key with
    | .text _ name =>
      match peekKind rest with
      | .colon =>
        let (value, rest) ← readValue fuel (rest.drop 1)
        let done := (name, start, value) :: done
        match rest with
        | u :: rest' =>
          match u.kind with
          | .comma =>
            if peekKind rest' = .closeBrace then .error .trailingCommaInObject
            else readProperties fuel done rest'
          | .closeBrace => .ok (.object u.range.last done.reverse, rest')
          | .eof => .error .unclosedObject
          | .closeBracket => .error .mismatchedBraces
          | _ => .error .noComma
        | [] => .error .unclosedObject
      | .closeBrace | .comma => .error .noObjectValue
      | _ => .error .noColon
    | _ => .error .invalidPropertyName

/-- Reads the items of an array. -/
def readItems : Nat → List Node → List Token → Except Problem (Node × List Token)
  | 0, _, _ => .error .noValue
  | fuel + 1, done, ts => do
    let (value, rest) ← readValue fuel ts
    match rest with
    | u :: rest' =>
      match u.kind with
      | .comma =>
        if peekKind rest' = .closeBracket then .error .trailingCommaInArray
        else readItems fuel (value :: done) rest'
      | .closeBracket => .ok (.array u.range.last (value :: done).reverse, rest')
      | .colon => .error .invalidArrayValue
      | .eof => .error .unclosedObject
      | .closeBrace => .error .mismatchedBrackets
      | _ => .error .noComma
    | [] => .error .unclosedObject

end

/-- Reads a whole text; it has to be an object or an array. -/
def readText (s : List Symbol) : Except Problem Node := do
  let ts := tokens s
  let (node, rest) ← readValue (2 * ts.length + 2) ts
  if peekKind rest ≠ .eof then .error .extraData
  else
    match node with
    | .object _ _ | .array _ _ => .ok node
    | _ => .error .rootNotObject

/-! ## Values of arguments -/

mutual

/-- The value that a node stands for as an argument. Strings are taken as they are. -/
def value : Node → Except Problem Value
  | .null _ => .ok (.null .dynamic)
  | .bool _ b => .ok (.bool b)
  | .number _ n => .ok (.number n)
  | .text _ s => .ok (.text (Text.normalize s))
  | .array _ items => do return .tuple (← values items)
  | .object _ properties => objectValue properties []

def values : List Node → Except Problem (List Value)
  | [] => .ok []
  | n :: rest => do return (← value n) :: (← values rest)

def objectValue : List (String × Position × Node) → List (String × Value) → Except Problem Value
  | [], done => .ok (.object done)
  | (name, _, node) :: rest, done => do
    let v ← value node
    let name := Text.normalize name
    if done.any (·.1 = name) then .error .duplicateProperty
    else objectValue rest (setEntry name v done)

end

end CypherBlocks.Config.Json
