import CypherBlocks.Number.Double

/-!
# Durations

A duration is a number of nanoseconds.  Its text is a sequence of numbers with units, such as
`1h30m0s` or `1.5ms`; it is written with hours, minutes and seconds from a second on, and with a
single smaller unit below.
-/

namespace CypherBlocks.Duration

def microsecond : Nat := 1000

def millisecond : Nat := 1000000

def second : Nat := 1000000000

def minute : Nat := 60 * second

def hour : Nat := 60 * minute

/-! ## Text -/

/-- The digits of `n` after a point, without zeros at the end; nothing if all are zero. -/
def fractionText (places n : Nat) : String :=
  let digits :=
    (List.range places).map fun i => Char.ofNat ('0'.toNat + n / Nat.pow 10 (places - 1 - i) % 10)
  let kept := (digits.reverse.dropWhile (· = '0')).reverse
  if kept.isEmpty then "" else String.ofList ('.' :: kept)

/-- `n` in a unit of `10^places`. -/
def unitText (places n : Nat) : String := toString (n / Nat.pow 10 places) ++ fractionText places n

def sizeText (n : Nat) : String :=
  if n = 0 then "0s"
  else if n < microsecond then s!"{n}ns"
  else if n < millisecond then s!"{unitText 3 n}µs"
  else if n < second then s!"{unitText 6 n}ms"
  else
    let seconds := s!"{n / second % 60}{fractionText 9 n}s"
    let minutes := n / minute
    if minutes = 0 then seconds
    else
      let hours := minutes / 60
      if hours = 0 then s!"{minutes}m{seconds}" else s!"{hours}h{minutes % 60}m{seconds}"

/-- The text of a duration. -/
def text (ns : Int) : String := if ns < 0 then s!"-{sizeText ns.natAbs}" else sizeText ns.natAbs

/-! ## Reading -/

/-- The greatest size of a negative duration. -/
def greatestSize : Nat := 9223372036854775808

def unit? (u : String) : Option Nat :=
  if u = "ns" then some 1
  else if u = "us" || u = "µs" || u = "μs" then some microsecond
  else if u = "ms" then some millisecond
  else if u = "s" then some second
  else if u = "m" then some minute
  else if u = "h" then some hour
  else none

def digitValue (c : Char) : Nat := c.toNat - '0'.toNat

def wholeValue (cs : List Char) : Nat := cs.foldl (fun n c => n * 10 + digitValue c) 0

/-- A fraction as a numerator and its number of digits; digits that no longer fit are dropped. -/
def fractionOf (cs : List Char) : Nat × Nat :=
  (cs.foldl
    (fun (n, places, full) c =>
      let m := n * 10 + digitValue c
      if full || (greatestSize - 1) / 10 < n || greatestSize < m then (n, places, true)
      else (m, places + 1, false))
    (0, 0, false) |> fun (n, places, _) => (n, places))

/-- The product of two doubles, cut to an integer. -/
def productFloor (x y : Double) : Nat :=
  match x, y with
  | .finite _ m e, .finite _ n f =>
    match Double.round false (m * n) (e + f) false with
    | .finite _ k g => if 0 ≤ g then k <<< g.toNat else k >>> (-g).toNat
    | _ => 0
  | _, _ => 0

/-- A fraction of a unit in nanoseconds, computed in double precision. -/
def fractionSize (n places unit : Nat) : Nat :=
  if n = 0 then 0 else productFloor (Double.ofRatio false n 1)
    (Double.ofRatio false unit (Nat.pow 10 places))

def isNumeric (c : Char) : Bool := c.isDigit || c = '.'

/-- The size of the number with its unit at the front, and the characters after it. -/
def term? (cs : List Char) : Option (Nat × List Char) :=
  let whole := cs.takeWhile Char.isDigit
  let rest := cs.dropWhile Char.isDigit
  let (fraction, rest) := match rest with
    | '.' :: rest => (rest.takeWhile Char.isDigit, rest.dropWhile Char.isDigit)
    | _ => ([], rest)
  let name := rest.takeWhile (!isNumeric ·)
  if whole.isEmpty && fraction.isEmpty then none
  else
    match unit? (String.ofList name) with
    | none => none
    | some unit =>
      let (n, places) := fractionOf fraction
      let size := wholeValue whole * unit + fractionSize n places unit
      some (size, rest.dropWhile (!isNumeric ·))

/-- Adds up numbers with units; each of them takes a character at least. -/
def sizeFrom? : Nat → List Char → Nat → Option Nat
  | _, [], sum => some sum
  | 0, _, _ => none
  | fuel + 1, cs, sum =>
    match term? cs with
    | none => none
    | some (size, rest) =>
      if greatestSize < sum + size then none else sizeFrom? fuel rest (sum + size)

/-- The duration that a text stands for. -/
def parse? (s : String) : Option Int :=
  let (negative, cs) := match s.toList with
    | '-' :: rest => (true, rest)
    | '+' :: rest => (false, rest)
    | cs => (false, cs)
  if cs = ['0'] then some 0
  else if cs.isEmpty then none
  else
    match sizeFrom? cs.length cs 0 with
    | none => none
    | some n =>
      if negative then some (-n)
      else if n = greatestSize then none
      else some n

end CypherBlocks.Duration
