import CypherBlocks.Text.Quoted
import CypherBlocks.Text.Utf8

/-!
# Web addresses

An address is a scheme, a host and a path; what else it may hold is checked and left out.  Escapes
stand for bytes, so a part of an address is bytes until it is read as text.
-/

namespace CypherBlocks.Web

inductive UrlError where
  | controlCharacter
  | noScheme
  | colonInFirstSegment
  | unclosedBracket
  | invalidPort (text : List UInt8)
  | invalidUserInfo
  | invalidEscape (text : List UInt8)
  | invalidHostCharacter (c : UInt8)
  deriving Repr, DecidableEq

def bytesText (bytes : List UInt8) : String := Text.decode bytes

def UrlError.message : UrlError → String
  | .controlCharacter => "net/url: invalid control character in URL"
  | .noScheme => "missing protocol scheme"
  | .colonInFirstSegment => "first path segment in URL cannot contain colon"
  | .unclosedBracket => "missing ']' in host"
  | .invalidPort text => s!"invalid port {Text.quoted (bytesText text)} after host"
  | .invalidUserInfo => "net/url: invalid userinfo"
  | .invalidEscape text => s!"invalid URL escape {Text.quoted (bytesText text)}"
  | .invalidHostCharacter c => s!"invalid character {Text.quoted (bytesText [c])} in host name"

structure Url where
  scheme : String
  host : String
  path : String
  deriving Repr, DecidableEq

/-! ## Bytes -/

def byte (c : Char) : UInt8 := c.toNat.toUInt8

def isDigitByte (b : UInt8) : Bool := byte '0' ≤ b && b ≤ byte '9'

def isLetterByte (b : UInt8) : Bool :=
  (byte 'a' ≤ b && b ≤ byte 'z') || (byte 'A' ≤ b && b ≤ byte 'Z')

def isHexByte (b : UInt8) : Bool :=
  isDigitByte b || (byte 'a' ≤ b && b ≤ byte 'f') || (byte 'A' ≤ b && b ≤ byte 'F')

def hexByteValue (b : UInt8) : UInt8 :=
  if isDigitByte b then b - byte '0'
  else if byte 'a' ≤ b then b - byte 'a' + 10
  else b - byte 'A' + 10

def isIn (chars : String) (b : UInt8) : Bool := chars.toList.any (byte · == b)

/-- Cuts at the first occurrence of a byte, which is dropped. -/
def cut (b : UInt8) (s : List UInt8) : List UInt8 × List UInt8 :=
  (s.takeWhile (· != b), (s.dropWhile (· != b)).drop 1)

/-- Cuts at the last occurrence of a byte, which begins the second part; nothing if there is
none. -/
def cutLast? (b : UInt8) (s : List UInt8) : Option (List UInt8 × List UInt8) :=
  if s.contains b then
    let tail := s.reverse.takeWhile (· != b)
    some (s.take (s.length - tail.length - 1), b :: tail.reverse)
  else none

/-! ## Escapes -/

/-- The parts of an address that differ in what they may hold. -/
inductive Part where
  | host | zone | other
  deriving Repr, DecidableEq

/-- The ASCII bytes that a host may hold as they are. -/
def isHostByte (b : UInt8) : Bool :=
  isLetterByte b || isDigitByte b || isIn "!$&'()*+,;=:[]<>\"-_.~" b

/-- Whether an escape may stand in a part: in a host only for bytes beyond ASCII and the percent
sign, in a zone also for what the host may hold, and for a space. -/
def escapeAllowed (part : Part) (hi lo : UInt8) : Bool :=
  let v := hexByteValue hi * 16 + hexByteValue lo
  match part with
  | .host => 8 ≤ hexByteValue hi || (hi == byte '2' && lo == byte '5')
  | .zone => v == byte '%' || v == byte ' ' || isHostByte v
  | .other => true

/-- Resolves the escapes of a part. -/
def unescape (part : Part) : List UInt8 → Except UrlError (List UInt8)
  | [] => .ok []
  | b :: rest =>
    if b == byte '%' then
      match rest with
      | hi :: lo :: rest' =>
        if isHexByte hi && isHexByte lo then
          if escapeAllowed part hi lo then do
            return (hexByteValue hi * 16 + hexByteValue lo) :: (← unescape part rest')
          else .error (.invalidEscape [b, hi, lo])
        else .error (.invalidEscape [b, hi, lo])
      | _ => .error (.invalidEscape (b :: rest))
    else if part != .other && b < 0x80 && !isHostByte b then .error (.invalidHostCharacter b)
    else do return b :: (← unescape part rest)

/-! ## Parts -/

/-- The scheme and what follows its colon; there is none if another character comes first. -/
def schemeFrom (done : List UInt8) (whole : List UInt8) :
    List UInt8 → Except UrlError (List UInt8 × List UInt8)
  | [] => .ok ([], whole)
  | b :: rest =>
    if isLetterByte b then schemeFrom (b :: done) whole rest
    else if isDigitByte b || isIn "+-." b then
      if done.isEmpty then .ok ([], whole) else schemeFrom (b :: done) whole rest
    else if b == byte ':' then
      if done.isEmpty then .error .noScheme else .ok (done.reverse, rest)
    else .ok ([], whole)

def isPort (s : List UInt8) : Bool :=
  match s with
  | [] => true
  | b :: digits => b == byte ':' && digits.all isDigitByte

/-- Where a zone begins in a bracketed host: at an escaped percent sign. -/
def zoneStart? : List UInt8 → Option Nat
  | [] => none
  | a :: rest =>
    if a == byte '%' && rest.take 2 == [byte '2', byte '5'] then some 0
    else (zoneStart? rest).map (· + 1)

def parseHost (host : List UInt8) : Except UrlError (List UInt8) :=
  if host.head? == some (byte '[') then
    match cutLast? (byte ']') host with
    | none => .error .unclosedBracket
    | some (inside, closing) =>
      let port := closing.drop 1
      if !isPort port then .error (.invalidPort port)
      else
        match zoneStart? inside with
        | some n => do
          let before ← unescape .host (inside.take n)
          let zone ← unescape .zone (inside.drop n)
          let after ← unescape .host closing
          return before ++ zone ++ after
        | none => unescape .host host
  else
    match cutLast? (byte ':') host with
    | some (_, port) => if isPort port then unescape .host host else .error (.invalidPort port)
    | none => unescape .host host

def isUserInfoByte (b : UInt8) : Bool :=
  isLetterByte b || isDigitByte b || isIn "-._:~!$&'()*+,;=%@" b

/-- The host of an authority; user and password are only checked. -/
def parseAuthority (authority : List UInt8) : Except UrlError (List UInt8) :=
  match cutLast? (byte '@') authority with
  | none => parseHost authority
  | some (user, host) => do
    let host ← parseHost (host.drop 1)
    if !user.all isUserInfoByte then .error .invalidUserInfo
    else
      let (name, password) := cut (byte ':') user
      let _ ← unescape .other name
      let _ ← unescape .other password
      return host

def startsWith (chars : String) (s : List UInt8) : Bool := (chars.toList.map byte).isPrefixOf s

/-- The query is left out. A lone question mark at the end is one without a query. -/
def dropQuery (s : List UInt8) : List UInt8 := (cut (byte '?') s).1

def lowerByte (b : UInt8) : UInt8 := if byte 'A' ≤ b && b ≤ byte 'Z' then b + 32 else b

/-- Reads an address without its fragment. -/
def parseMain (s : List UInt8) : Except UrlError Url := do
  if s.any fun b => b < 0x20 || b == 0x7f then .error .controlCharacter
  else if s == [byte '*'] then return ⟨"", "", "*"⟩
  else
    let (scheme, rest) ← schemeFrom [] s s
    let scheme := bytesText (scheme.map lowerByte)
    let rest := dropQuery rest
    if !startsWith "/" rest && !scheme.isEmpty then return ⟨scheme, "", ""⟩
    else if !startsWith "/" rest && (cut (byte '/') rest).1.contains (byte ':') then
      .error .colonInFirstSegment
    else if (!scheme.isEmpty || !startsWith "///" rest) && startsWith "//" rest then
      let authority := (rest.drop 2).takeWhile (· != byte '/')
      let path := (rest.drop 2).dropWhile (· != byte '/')
      let host ← parseAuthority authority
      return ⟨scheme, bytesText host, bytesText (← unescape .other path)⟩
    else return ⟨scheme, "", bytesText (← unescape .other rest)⟩

/-- An error with the address that it is about. -/
structure UrlFailure where
  address : String
  cause : UrlError
  deriving Repr, DecidableEq

def UrlFailure.message (f : UrlFailure) : String :=
  s!"parse {Text.quoted f.address}: {f.cause.message}"

/-- Reads an address. -/
def parseUrl (address : String) : Except UrlFailure Url :=
  let (main, fragment) := cut (byte '#') address.toUTF8.toList
  match parseMain main with
  | .error e => .error ⟨bytesText main, e⟩
  | .ok url =>
    match unescape .other fragment with
    | .error e => .error ⟨address, e⟩
    | .ok _ => .ok url

end CypherBlocks.Web
