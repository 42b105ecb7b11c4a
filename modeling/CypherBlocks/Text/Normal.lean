import CypherBlocks.Text.Decomposition
import CypherBlocks.Text.Ranges

/-!
# Composed normal form

Text is decomposed as far as it goes, marks are put in the order of their combining classes, and
every character that can be is composed again.  Two canonically equivalent texts have the same
composition.  Before that, runs of marks are broken, so that a bounded buffer is enough to order and
compose them.
-/

namespace CypherBlocks.Text

/-- Below this code point every character is its own normal form and has combining class zero. -/
def firstUnstable : Nat := 0xc0

def combiningClass (n : Nat) : Nat :=
  if n < 0x300 then 0
  else
    match combiningClasses.find? fun (first, last, _) => first ≤ n && n ≤ last with
    | some (_, _, k) => k
    | none => 0

/-! ## Hangul syllables -/

def syllableBase : Nat := 0xac00
def leadingBase : Nat := 0x1100
def vowelBase : Nat := 0x1161
def trailingBase : Nat := 0x11a7
def leadingCount : Nat := 19
def vowelCount : Nat := 21
def trailingCount : Nat := 28
def syllableCount : Nat := leadingCount * vowelCount * trailingCount

/-- The two or three letters of a syllable. -/
def syllableLetters (n : Nat) : List Nat :=
  let i := n - syllableBase
  let t := i % trailingCount
  [leadingBase + i / (vowelCount * trailingCount), vowelBase + i / trailingCount % vowelCount]
    ++ if t = 0 then [] else [trailingBase + t]

def isSyllable (n : Nat) : Bool := syllableBase ≤ n && n < syllableBase + syllableCount

/-! ## Decomposition -/

/-- The first character of a pair may decompose further, at most this often. -/
def decompositionDepth : Nat := 3

def decomposeFrom : Nat → Nat → List Nat
  | 0, n => [n]
  | depth + 1, n =>
    match composites.find? (·.1 == n) with
    | some (_, a, b) => decomposeFrom depth a ++ [b]
    | none =>
      match oneWayPairs.find? (·.1 == n) with
      | some (_, a, b) => decomposeFrom depth a ++ [b]
      | none =>
        match singletonRuns.find? fun (first, targets) =>
          first ≤ n && n < first + targets.length with
        | some (first, targets) => decomposeFrom depth (targets.getD (n - first) n)
        | none => [n]

def decompose (n : Nat) : List Nat :=
  if n < firstUnstable then [n]
  else if isSyllable n then syllableLetters n
  else decomposeFrom decompositionDepth n

/-! ## Order of marks -/

/-- Puts a mark before the marks of a higher class at the end of a reversed text. -/
def insertMark (n : Nat) : List Nat → List Nat
  | [] => [n]
  | m :: rest =>
    if combiningClass n < combiningClass m then m :: insertMark n rest else n :: m :: rest

/-- Sorts every run of marks by class; characters of equal class keep their order. The result is
reversed. -/
def orderMarksReversed : List Nat → List Nat → List Nat
  | done, [] => done
  | done, n :: rest =>
    orderMarksReversed (if combiningClass n = 0 then n :: done else insertMark n done) rest

def orderMarks (ns : List Nat) : List Nat := (orderMarksReversed [] ns).reverse

/-! ## Composition -/

/-- The single character for a pair, if there is one. -/
def composePair (a b : Nat) : Option Nat :=
  if leadingBase ≤ a && a < leadingBase + leadingCount && vowelBase ≤ b && b <
    vowelBase + vowelCount then
    some (syllableBase + ((a - leadingBase) * vowelCount + (b - vowelBase)) * trailingCount)
  else if isSyllable a && (a - syllableBase) % trailingCount = 0 && trailingBase < b && b <
    trailingBase + trailingCount then
    some (a + (b - trailingBase))
  else (composites.find? fun (_, x, y) => x == a && y == b).map (·.1)

/-- Composes marks with the last starter. `skipped` holds the marks after it that stay, last first,
and a mark is blocked if one of them has its class or a higher one. -/
def composeFrom : Option Nat → List Nat → List Nat → List Nat
  | starter, skipped, [] => starter.toList ++ skipped.reverse
  | none, skipped, n :: rest =>
    if combiningClass n = 0 then skipped.reverse ++ composeFrom (some n) [] rest
    else composeFrom none (n :: skipped) rest
  | some s, skipped, n :: rest =>
    let k := combiningClass n
    let blocked := match skipped with
      | [] => false
      | m :: _ => k ≤ combiningClass m
    match if blocked then none else composePair s n with
    | some c => composeFrom (some c) skipped rest
    | none =>
      if k = 0 then s :: skipped.reverse ++ composeFrom (some n) [] rest
      else composeFrom (some s) (n :: skipped) rest

/-- The canonical composition of a text given by its code points. -/
def compose (ns : List Nat) : List Nat := composeFrom none [] (orderMarks (ns.flatMap decompose))

/-! ## Runs of marks -/

/-- So many marks may follow each other. -/
def longestRun : Nat := 30

/-- The invisible character that breaks a run: a starter that composes with nothing. -/
def joiner : Nat := 0x34f

/-- Whether a letter attaches to what stands before it. -/
def attaches (n : Nat) : Bool := combiningClass n != 0 || inRanges attachingLetters n

/-- The marks that a letter brings with it. -/
def marksOf (n : Nat) : Nat :=
  match ownMarks.find? fun (first, last, _) => first ≤ n && n ≤ last with
  | some (_, _, k) => k
  | none => 0

/-- How long the run is after one more letter. -/
def runStep (count n : Nat) : Nat := if attaches n then count + 1 else marksOf n

/-- Puts a joiner before every character with which a run would become too long. -/
def breakRuns : Nat → List Nat → List Nat
  | _, [] => []
  | count, n :: rest =>
    let letters := decompose n
    if longestRun < count + (letters.takeWhile attaches).length then
      joiner :: n :: breakRuns (letters.foldl runStep 0) rest
    else n :: breakRuns (letters.foldl runStep count) rest

/-- Whether normalising leaves all of a text as it is without looking further. -/
def isStable (s : String) : Bool := s.toList.all fun c => c.toNat < firstUnstable

def codePoints (s : String) : List Nat := s.toList.map Char.toNat

def ofCodePoints (ns : List Nat) : String := String.ofList (ns.map Char.ofNat)

/-- The normal form of a text: no run of marks is too long, and the text is composed. -/
def normalize (s : String) : String :=
  if isStable s then s else ofCodePoints (compose (breakRuns 0 (codePoints s)))

end CypherBlocks.Text
