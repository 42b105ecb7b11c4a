import CypherBlocks.Number.Decimal

/-!
# Binary floating-point numbers of a chosen precision

A number is zero, infinite, or `± mant · 2^exp` with at most `prec` significant bits; zero and
infinity are signed.  Every operation computes the exact result and rounds once, to the nearest
number of the result's precision and to the even one of two equally near.  Exponents have 32 bits: a
result that is too small for them becomes zero, and one that is too large becomes infinite.  The
text of a number has the fewest digits that distinguish it from its neighbours of the same
precision.
-/

namespace CypherBlocks

/-- Zero, `mant · 2^exp` with a positive `mant`, or infinity. -/
inductive Magnitude where
  | zero
  | finite (mant : Nat) (exp : Int)
  | infinite
  deriving Repr, DecidableEq

structure Binary where
  prec : Nat
  neg : Bool
  size : Magnitude
  deriving Repr, DecidableEq

namespace Binary

/-- The number of binary digits of `n`. -/
def bitLength (n : Nat) : Nat :=
  if n = 0 then 0 else n.log2 + 1

/-- `n / 2^k`, rounded to the nearest integer; a half goes to the even one. -/
def shiftRound (n k : Nat) : Nat :=
  if k = 0 then n
  else
    let q := n >>> k
    let r := n - (q <<< k)
    let half := 1 <<< (k - 1)
    if r > half || (r == half && q % 2 == 1) then q + 1 else q

def infinity (prec : Nat) (neg : Bool) : Binary := ⟨prec, neg, .infinite⟩

/-- A number other than zero is at least `2^(-exponentBound - 1)` and below `2^(exponentBound -
1)`. -/
def exponentBound : Int := 2147483648

/-- The number nearest to `± n · 2^e`, if there is one in bounds. -/
def round (prec : Nat) (neg : Bool) (n : Nat) (e : Int) : Binary :=
  if n = 0 || bitLength n + e < -exponentBound then ⟨prec, neg, .zero⟩
  else
    let k := bitLength n - prec
    let m := shiftRound n k
    if exponentBound ≤ bitLength m + (e + k) then infinity prec neg
    else ⟨prec, neg, .finite m (e + k)⟩

/-- The number nearest to `± (a / b) · 2^e`; `b` is positive. The quotient is taken with two spare
bits, and a remainder sets the last of them, so rounding sees on which side of a half it lies. -/
def roundQuotient (prec : Nat) (neg : Bool) (a b : Nat) (e : Int) : Binary :=
  let k := prec + 2 + bitLength b - bitLength a
  let q := (a <<< k) / b
  let sticky := if (a <<< k) % b = 0 then 0 else 1
  round prec neg (2 * q + sticky) (e - k - 1)

/-- The precision of numbers that are read from text. -/
def textPrecision : Nat := 512

/-- The precision of counted numbers. -/
def countPrecision : Nat := 64

def ofInt (prec : Nat) (i : Int) : Binary := round prec (i < 0) i.natAbs 0

/-- An integer index or count. -/
def ofIndex (n : Nat) : Binary := ofInt countPrecision n

def isZero (x : Binary) : Bool := x.size == .zero

def isInfinite (x : Binary) : Bool := x.size == .infinite

def negate (x : Binary) : Binary := { x with neg := !x.neg }

/-! ## Order -/

/-- Compares two finite sizes. -/
def compareSizes (m : Nat) (e : Int) (n : Nat) (f : Int) : Ordering :=
  let top := (bitLength m : Int) + e
  let top' := (bitLength n : Int) + f
  if top < top' then .lt
  else if top' < top then .gt
  else
    let low := min e f
    compare (m <<< (e - low).toNat) (n <<< (f - low).toNat)

def compareMagnitude : Magnitude → Magnitude → Ordering
  | .zero, .zero => .eq
  | .zero, _ => .lt
  | _, .zero => .gt
  | .infinite, .infinite => .eq
  | .infinite, _ => .gt
  | _, .infinite => .lt
  | .finite m e, .finite n f => compareSizes m e n f

/-- Numeric order: precision and the sign of zero do not matter. -/
def order (x y : Binary) : Ordering :=
  let sign (z : Binary) : Int := if z.isZero then 0 else if z.neg then -1 else 1
  if sign x != sign y then compare (sign x) (sign y)
  else if sign x = 1 then compareMagnitude x.size y.size
  else compareMagnitude y.size x.size

def sameNumber (x y : Binary) : Bool := order x y == .eq

/-! ## Arithmetic -/

/-- The exact sum of two signed sizes, as a signed integer over a common exponent. -/
def exactSum (x y : Binary) (m : Nat) (e : Int) (n : Nat) (f : Int) : Int × Int :=
  let low := min e f
  let a : Int := (m <<< (e - low).toNat : Nat)
  let b : Int := (n <<< (f - low).toNat : Nat)
  ((if x.neg then -a else a) + (if y.neg then -b else b), low)

/-- Sum at the given precision; `none` for infinities of opposite sign. A sum of opposite numbers is
positive zero. -/
def addAt? (prec : Nat) (x y : Binary) : Option Binary :=
  match x.size, y.size with
  | .infinite, .infinite => if x.neg == y.neg then some (infinity prec x.neg) else none
  | .infinite, _ => some (infinity prec x.neg)
  | _, .infinite => some (infinity prec y.neg)
  | .zero, .zero => some ⟨prec, x.neg && y.neg, .zero⟩
  | .zero, .finite n f => some (round prec y.neg n f)
  | .finite m e, .zero => some (round prec x.neg m e)
  | .finite m e, .finite n f =>
    let (s, low) := exactSum x y m e n f
    some (round prec (s < 0) s.natAbs low)

def add? (x y : Binary) : Option Binary := addAt? (max x.prec y.prec) x y

def sub? (x y : Binary) : Option Binary := add? x y.negate

/-- Product at the given precision; `none` for zero times infinity. -/
def mulAt? (prec : Nat) (x y : Binary) : Option Binary :=
  let neg := x.neg != y.neg
  match x.size, y.size with
  | .zero, .infinite => none
  | .infinite, .zero => none
  | .infinite, _ => some (infinity prec neg)
  | _, .infinite => some (infinity prec neg)
  | .zero, _ => some ⟨prec, neg, .zero⟩
  | _, .zero => some ⟨prec, neg, .zero⟩
  | .finite m e, .finite n f => some (round prec neg (m * n) (e + f))

/-- The number of bits that a number needs: trailing zeros are not counted. -/
def minPrecision (x : Binary) : Nat :=
  match x.size with
  | .finite m _ =>
    bitLength m - (List.range (bitLength m)).countP fun i => m % Nat.pow 2 (i + 1) == 0
  | _ => 0

/-- Product. It keeps as many bits as it needs, up to the precision of numbers read from text. -/
def mul? (x y : Binary) : Option Binary := do
  let p ← mulAt? textPrecision x y
  return { p with prec := max (max x.prec y.prec) p.minPrecision }

/-- Quotient; a number over zero is infinite, and `none` stands for zero over zero and infinity over
infinity. -/
def div? (x y : Binary) : Option Binary :=
  let prec := max x.prec y.prec
  let neg := x.neg != y.neg
  match x.size, y.size with
  | .zero, .zero => none
  | .infinite, .infinite => none
  | .zero, _ => some ⟨prec, neg, .zero⟩
  | _, .infinite => some ⟨prec, neg, .zero⟩
  | .infinite, _ => some (infinity prec neg)
  | _, .zero => some (infinity prec neg)
  | .finite m e, .finite n f => some (roundQuotient prec neg m n (e - f))

/-- The integer part, cut toward zero; `none` for infinity. -/
def truncate? (x : Binary) : Option Int :=
  match x.size with
  | .infinite => none
  | .zero => some 0
  | .finite m e =>
    let n : Nat := if 0 ≤ e then m <<< e.toNat else m >>> (-e).toNat
    some (if x.neg then -(n : Int) else n)

/-- `x - y · trunc(x / y)`; the remainder by zero is `x` itself. -/
def rem? (x y : Binary) : Option Binary := do
  if y.isZero then return x
  let q ← div? x y
  let n ← q.truncate?
  let t ← mulAt? x.prec y (ofInt x.prec n)
  addAt? x.prec x t.negate

/-- The exact integer value, if the number is an integer. Exponents far above any fixed width are
not expanded. -/
def toInt? (x : Binary) : Option Int :=
  match x.size with
  | .infinite => none
  | .zero => some 0
  | .finite m e =>
    if 0 ≤ e then some (if x.neg then -(m <<< e.toNat : Nat) else (m <<< e.toNat : Nat))
    else if m % Nat.pow 2 (-e).toNat = 0 then
      some (if x.neg then -((m >>> (-e).toNat : Nat) : Int) else (m >>> (-e).toNat : Nat))
    else none

/-! ## Text -/

/-- Walks the digits of `d` until it differs enough from both bounds: cutting is allowed once the
lower bound differs, or ends here and is itself a number that reads back; rounding up likewise with
the upper bound. -/
def shortenFrom (d lower upper : Decimal) (inclusive : Bool) : Nat → List Nat → Decimal
  | _, [] => d
  | i, m :: rest =>
    let l := lower.digitAt i
    let u := upper.digitAt i
    let down := l != m || (inclusive && i + 1 == lower.digits.length)
    let up := m != u && (inclusive || m + 1 < u || i + 1 < upper.digits.length)
    if down && up then d.round (i + 1)
    else if down then d.cut (i + 1)
    else if up then d.cutUp (i + 1)
    else shortenFrom d lower upper inclusive (i + 1) rest

/-- The fewest decimal digits that lie within half a unit in the last place of `m · 2^e`. -/
def shortest (prec m : Nat) (e : Int) : Decimal :=
  let d := Decimal.ofBinary m e
  let s : Int := (bitLength m : Int) - (prec + 1)
  let mant := if s < 0 then m <<< (-s).toNat else m >>> s.toNat
  let exp := e + s
  let lower := Decimal.ofBinary (mant - 1) exp
  let upper := Decimal.ofBinary (mant + 1) exp
  shortenFrom d lower upper (mant / 2 % 2 == 0) 0 d.digits

/-- Positional text with the fewest digits. -/
def text (x : Binary) : String :=
  match x.size with
  | .zero => if x.neg then "-0" else "0"
  | .infinite => if x.neg then "-Inf" else "+Inf"
  | .finite m e => (if x.neg then "-" else "") ++ (shortest x.prec m e).text

/-! ## Reading -/

/-- `5^n` rounded to `prec` bits, by repeated squaring with 64 more bits. -/
def powFive (prec n : Nat) : Binary :=
  let small := 27
  if n ≤ small then round prec false (Nat.pow 5 n) 0
  else go (bitLength (n - small)) (n - small) (round prec false (Nat.pow 5 small) 0)
    (round (prec + 64) false 5 0)
where
  go : Nat → Nat → Binary → Binary → Binary
    | 0, _, z, _ => z
    | fuel + 1, n, z, f =>
      let z := if n % 2 = 1 then (mulAt? prec z f).getD z else z
      go fuel (n / 2) z ((mulAt? (prec + 64) f f).getD f)

/-- `± n · 10^dec · 2^bin`; the power of five is applied as one rounded factor. `none` if the binary
exponent is out of bounds before that factor is applied. -/
def ofScientific? (neg : Bool) (n : Nat) (dec bin : Int) : Option Binary :=
  if n = 0 then some ⟨textPrecision, neg, .zero⟩
  else
    let e := dec + bin
    let top := (bitLength n : Int) + e
    if top < -exponentBound || exponentBound ≤ top then none
    else if dec = 0 then some (round textPrecision neg n e)
    else
      let p := powFive (textPrecision + 64) dec.natAbs
      match p.size with
      | .finite m f =>
        if dec < 0 then some (roundQuotient textPrecision neg n m (e - f))
        else some (round textPrecision neg (n * m) (e + f))
      | _ => some (if dec < 0 then ⟨textPrecision, neg, .zero⟩ else infinity textPrecision neg)

/-- Reads digits into a number; `none` at another character. -/
def digitsValue? (cs : List Char) : Option Nat :=
  cs.foldlM (fun n c => if c.isDigit then some (10 * n + (c.toNat - '0'.toNat)) else none) 0

/-- Splits off a leading sign. -/
def splitSign : List Char → Bool × List Char
  | '+' :: cs => (false, cs)
  | '-' :: cs => (true, cs)
  | cs => (false, cs)

/-- The whole number of a sign and digits. -/
def signed (neg : Bool) (n : Nat) : Int := if neg then -n else n

/-- Whether an exponent fits in 64 bits with a sign. -/
def isExponent (k : Int) : Bool := -9223372036854775808 ≤ k && k < 9223372036854775808

/-- Reads an exponent of ten (`e`) or of two (`p`), if there is one, up to the end. -/
def readExponents? : List Char → Option (Int × Int)
  | [] => some (0, 0)
  | c :: cs => do
    let (neg, ds) := splitSign cs
    let k := signed neg (← digitsValue? ds)
    if ds.isEmpty || !isExponent k then none
    else if c = 'e' || c = 'E' then some (k, 0)
    else if c = 'p' || c = 'P' then some (0, k)
    else none

/-- The digits after a point and what comes after them. -/
def splitPoint : List Char → List Char × List Char
  | '.' :: cs => (cs.takeWhile Char.isDigit, cs.dropWhile Char.isDigit)
  | cs => ([], cs)

/-- Reads a number: an optional sign, digits with an optional point and at least one digit, and an
optional exponent. `Inf` and `inf` are infinite. -/
def parse? (s : String) : Option Binary :=
  let (neg, cs) := splitSign s.toList
  if cs = "Inf".toList || cs = "inf".toList then some (infinity textPrecision neg)
  else
    let whole := cs.takeWhile Char.isDigit
    let (fraction, rest) := splitPoint (cs.dropWhile Char.isDigit)
    if whole.isEmpty && fraction.isEmpty then none
    else do
      let (ten, two) ← readExponents? rest
      ofScientific? neg (← digitsValue? (whole ++ fraction)) (ten - fraction.length) two

end Binary

end CypherBlocks
