/-!
# White space

Blank characters are those with the property White_Space.
-/

namespace CypherBlocks.Text

def isBlankChar (c : Char) : Bool :=
  let n := c.toNat
  (0x09 ≤ n && n ≤ 0x0d) || n == 0x20 || n == 0x85 || n == 0xa0 || n == 0x1680
    || (0x2000 ≤ n && n ≤ 0x200a)
    || n == 0x2028 || n == 0x2029 || n == 0x202f || n == 0x205f || n == 0x3000

def trimLeft (s : String) : String := String.ofList (s.toList.dropWhile isBlankChar)

def trimRight (s : String) : String :=
  String.ofList (s.toList.reverse.dropWhile isBlankChar).reverse

/-- The text without blank characters at either end. -/
def trim (s : String) : String := trimRight (trimLeft s)

/-- Empty or made of blank characters only. -/
def isBlank (s : String) : Bool := s.toList.all isBlankChar

end CypherBlocks.Text
