/-!
# Reading bytes as characters

Bytes are read as UTF-8.  What is not a character is kept apart: a sequence that has the shape of an
encoded character but encodes none (an overlong form, a surrogate, a number above the last code
point), and a byte that fits no shape.  Either way each such byte becomes one replacement character
when the text is needed.
-/

namespace CypherBlocks.Text

inductive Symbol where
  | char (c : Char)
  | shaped (bytes : List UInt8)
  | stray (byte : UInt8)
  deriving Repr, DecidableEq

namespace Symbol

def replacement : Char := Char.ofNat 0xfffd

/-- The characters that stand for a symbol in text. -/
def chars : Symbol → List Char
  | .char c => [c]
  | .shaped bytes => bytes.map fun _ => replacement
  | .stray _ => [replacement]

def is (c : Char) : Symbol → Bool
  | .char d => c == d
  | _ => false

def satisfies (p : Char → Bool) : Symbol → Bool
  | .char c => p c
  | _ => false

end Symbol

def isContinuation (b : UInt8) : Bool := 0x80 ≤ b && b < 0xc0

/-- The six payload bits of a continuation byte. -/
def payload (b : UInt8) : Nat := b.toNat % 64

/-- A well-shaped sequence is a character if its number is in range for its length. -/
def classify (n low : Nat) (bytes : List UInt8) : Symbol :=
  if low ≤ n && n.isValidChar then .char (Char.ofNat n) else .shaped bytes

/-- The symbol that starts with byte `a`, and how many of the bytes after it belong to it. -/
def leading (a : UInt8) (rest : List UInt8) : Symbol × Nat :=
  if a < 0x80 then (.char (Char.ofNat a.toNat), 0)
  else
    match (rest.take 3).takeWhile isContinuation with
    | b :: more =>
      if 0xc0 ≤ a && a < 0xe0 then (classify (a.toNat % 32 * 64 + payload b) 0x80 [a, b], 1)
      else
        match more with
        | c :: more =>
          if 0xe0 ≤ a && a < 0xf0 then
            (classify ((a.toNat % 16 * 64 + payload b) * 64 + payload c) 0x800 [a, b, c], 2)
          else
            match more with
            | d :: _ =>
              if 0xf0 ≤ a && a < 0xf8 then
                (classify (((a.toNat % 8 * 64 + payload b) * 64 + payload c) * 64 + payload d)
                  0x10000 [a, b, c, d], 3)
              else (.stray a, 0)
            | [] => (.stray a, 0)
        | [] => (.stray a, 0)
    | [] => (.stray a, 0)

/-- Reads bytes as UTF-8. -/
def symbols : List UInt8 → List Symbol
  | [] => []
  | a :: rest => (leading a rest).1 :: symbols (rest.drop (leading a rest).2)
termination_by bytes => bytes.length
decreasing_by simp only [List.length_drop, List.length_cons]; omega

/-- The symbols of a text. -/
def symbolsOf (s : String) : List Symbol := s.toList.map .char

def charsOf (syms : List Symbol) : List Char := syms.flatMap Symbol.chars

/-- The text of a byte sequence, with a replacement character for every byte that belongs to no
character. -/
def decode (bytes : List UInt8) : String := String.ofList (charsOf (symbols bytes))

end CypherBlocks.Text
