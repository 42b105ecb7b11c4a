/-!
# Decimal fractions

A positive number is kept as `0.d₁d₂…dₙ · 10^point`.  Every number `m · 2^e` has such a form
exactly, because `2^(-k) = 5^k · 10^(-k)`; cutting and rounding then happen on the digits.
-/

namespace CypherBlocks

/-- The number `0.d₁d₂…dₙ · 10^point`; zero has no digits. -/
structure Decimal where
  digits : List Nat
  point : Int
  deriving Repr, DecidableEq

namespace Decimal

/-- The decimal digits of `n`, most significant first. -/
def digitsOf (n : Nat) : List Nat :=
  (Nat.toDigits 10 n).map fun c => c.toNat - '0'.toNat

def dropTrailingZeros (ds : List Nat) : List Nat :=
  (ds.reverse.dropWhile (· == 0)).reverse

/-- The integer `n` scaled by `10^scale`. -/
def ofScaled (n : Nat) (scale : Int) : Decimal :=
  if n = 0 then ⟨[], 0⟩
  else
    let ds := digitsOf n
    ⟨dropTrailingZeros ds, ds.length + scale⟩

/-- The exact decimal form of `m · 2^e`. -/
def ofBinary (m : Nat) (e : Int) : Decimal :=
  if 0 ≤ e then ofScaled (m * Nat.pow 2 e.toNat) 0
  else ofScaled (m * Nat.pow 5 (-e).toNat) e

/-- The digit at position `i`; every number continues with zeros. -/
def digitAt (d : Decimal) (i : Nat) : Nat :=
  d.digits.getD i 0

/-- Keeps the first `n` digits. -/
def cut (d : Decimal) (n : Nat) : Decimal :=
  let ds := dropTrailingZeros (d.digits.take n)
  ⟨ds, if ds = [] then 0 else d.point⟩

/-- One unit in the last place is added to the first `n` digits. A carry out of the first digit
moves the point. -/
def cutUp (d : Decimal) (n : Nat) : Decimal :=
  let kept := ((d.digits.take n).reverse.dropWhile (· == 9)).reverse
  match kept.getLast? with
  | none => ⟨[1], d.point + 1⟩
  | some last => ⟨kept.dropLast ++ [last + 1], d.point⟩

/-- A half is rounded to the even neighbour. -/
def roundsUp (d : Decimal) (n : Nat) : Bool :=
  if d.digitAt n == 5 && n + 1 == d.digits.length then
    n > 0 && d.digitAt (n - 1) % 2 == 1
  else 5 ≤ d.digitAt n

/-- The nearest number with at most `n` digits. -/
def round (d : Decimal) (n : Nat) : Decimal :=
  if n < d.digits.length then
    if d.roundsUp n then d.cutUp n else d.cut n
  else d

def digitChar (n : Nat) : Char :=
  Char.ofNat (n + '0'.toNat)

/-- Positional text: all digits, a point only before a fraction, never an exponent. -/
def text (d : Decimal) : String :=
  let whole := d.point.toNat
  let int := if whole = 0 then ['0'] else (List.range whole).map fun i => digitChar (d.digitAt i)
  let places := (d.digits.length - d.point).toNat
  let digit (i : Nat) : Char :=
    let at_ : Int := d.point + i
    if at_ < 0 then '0' else digitChar (d.digitAt at_.toNat)
  if places = 0 then String.ofList int
  else String.ofList (int ++ '.' :: (List.range places).map digit)

end Decimal

end CypherBlocks
