import CypherBlocks.Number.Binary

/-!
# Double precision

Confidences are numbers with 53 significant bits and exponents from `-1074` up, as interchange
format binary64 has them.  A finite double is kept as `± mant · 2^exp` with `mant < 2^53`, `-1074 ≤
exp ≤ 971`, and `mant` at least `2^52` unless `exp` is the least exponent, so each number has one
form.
-/

namespace CypherBlocks

inductive Double where
  | finite (neg : Bool) (mant : Nat) (exp : Int)
  | infinite (neg : Bool)
  | nan
  deriving Repr, DecidableEq

namespace Double

def mantissaBits : Nat := 53

def minExponent : Int := -1074

def maxExponent : Int := 971

def zero : Double := .finite false 0 minExponent

instance : Inhabited Double := ⟨zero⟩

/-- The double nearest to `± (2n + sticky) / 2 · 2^e`, where `sticky` tells of a remainder below the
last bit. A value of `2^1024` or more after rounding is infinite. -/
def round (neg : Bool) (n : Nat) (e : Int) (sticky : Bool) : Double :=
  let n := 2 * n + (if sticky then 1 else 0)
  let e := e - 1
  if n = 0 then .finite neg 0 minExponent
  else
    let target := max minExponent (e + Binary.bitLength n - mantissaBits)
    let m := if target ≤ e then n <<< (e - target).toNat else Binary.shiftRound n (target - e).toNat
    let (m, target) :=
      if m = Nat.pow 2 mantissaBits then (Nat.pow 2 (mantissaBits - 1), target + 1) else (m, target)
    if maxExponent < target then .infinite neg else .finite neg m target

/-- The double nearest to `± a / b`; `b` is positive. -/
def ofRatio (neg : Bool) (a b : Nat) : Double :=
  let k := mantissaBits + 2 + Binary.bitLength b - Binary.bitLength a
  round neg ((a <<< k) / b) (-k) ((a <<< k) % b != 0)

/-- The double nearest to `± n · 10^e`. -/
def ofScientific (neg : Bool) (n : Nat) (e : Int) : Double :=
  if 0 ≤ e then ofRatio neg (n * Nat.pow 10 e.toNat) 1 else ofRatio neg n (Nat.pow 10 (-e).toNat)

/-- The double nearest to a binary number. -/
def ofBinary (x : Binary) : Double :=
  match x.size with
  | .zero => .finite x.neg 0 minExponent
  | .infinite => .infinite x.neg
  | .finite m e =>
    -- far below the least exponent nothing is left
    if m = 0 || e + Binary.bitLength m < minExponent - 2 then .finite x.neg 0 minExponent
    else if maxExponent + 2000 < e then .infinite x.neg
    else round x.neg m e false

def isZero : Double → Bool
  | .finite _ m _ => m == 0
  | _ => false

def isFinite : Double → Bool
  | .finite .. => true
  | _ => false

/-- Greater than zero. -/
def isPositive : Double → Bool
  | .finite neg m _ => !neg && m != 0
  | .infinite neg => !neg
  | .nan => false

/-- The same double as a binary number of 53 bits; `none` for a NaN. -/
def toBinary? : Double → Option Binary
  | .finite neg m e => some (Binary.round mantissaBits neg m e)
  | .infinite neg => some (Binary.infinity mantissaBits neg)
  | .nan => none

/-! ## Text -/

/-- Whether `n · 10^s` reads back as `m · 2^e`: it lies between the midpoints to the two
neighbouring doubles, an end counting exactly when `m` is even. The neighbour below a power of two
is only half as far away. -/
def readsBack (m : Nat) (e : Int) (n : Nat) (s : Int) : Bool :=
  -- everything is scaled by `2^(2 - e) · 10^(-s)` as needed to stay in the integers
  let two := Nat.pow 2 (e - 2).natAbs
  let ten := Nat.pow 10 s.natAbs
  let value (q : Nat) : Nat := q * (if 2 ≤ e then two else 1) * (if 0 ≤ s then 1 else ten)
  let candidate := n * (if 0 ≤ s then ten else 1) * (if 2 ≤ e then 1 else two)
  let low := if m = Nat.pow 2 (mantissaBits - 1) && minExponent < e then 4 * m - 1 else 4 * m - 2
  let high := 4 * m + 2
  if m % 2 = 0 then value low ≤ candidate && candidate ≤ value high
  else value low < candidate && candidate < value high

/-- The nearer of two neighbours on a decimal grid, or the one that reads back. -/
def choose (d : Decimal) (m : Nat) (e : Int) (n : Nat) : Option Decimal :=
  let down := d.cut n
  let up := d.cutUp n
  let reads (x : Decimal) : Bool :=
    let whole := x.digits.foldl (fun a b => 10 * a + b) 0
    readsBack m e whole (x.point - x.digits.length)
  match reads down, reads up with
  | true, true => some (d.round n)
  | true, false => some down
  | false, true => some up
  | false, false => none

/-- The fewest digits that read back, and of those the nearest. -/
def shortest (m : Nat) (e : Int) : Decimal :=
  let d := Decimal.ofBinary m e
  ((List.range d.digits.length).findSome? fun i => choose d m e (i + 1)).getD d

/-- Positional text with the fewest digits that read back. -/
def text : Double → String
  | .nan => "NaN"
  | .infinite neg => if neg then "-Inf" else "+Inf"
  | .finite neg m e =>
    (if neg then "-" else "") ++ (if m = 0 then "0" else (shortest m e).text)

end Double

end CypherBlocks
