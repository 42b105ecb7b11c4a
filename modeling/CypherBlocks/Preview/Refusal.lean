import CypherBlocks.Number.Double

/-!
# Refused connections

What a server sends when it refuses a connection can be of any shape; the first detail is shown.
-/

namespace CypherBlocks.Preview

inductive Detail where
  | nothing
  | error (text : String)
  | text (s : String)
  | bool (b : Bool)
  | number (x : Double)
  | list (items : List Detail)
  | record (fields : List (String × Detail))
  deriving Inhabited

/-- Digits with an exponent: one digit before the point and at least two in the exponent. -/
def exponentText (d : Decimal) : String :=
  let digits := d.digits.map fun n => Char.ofNat ('0'.toNat + n)
  let mantissa := match digits with
    | [] => ['0']
    | [c] => [c]
    | c :: rest => c :: '.' :: rest
  let e := d.point - 1
  let size := toString e.natAbs
  let padded := if size.length < 2 then "0" ++ size else size
  String.ofList mantissa ++ (if e < 0 then "e-" else "e+") ++ padded

/-- A number with the fewest digits; with an exponent from a million on and below a
ten-thousandth. -/
def numberText (x : Double) : String :=
  match x with
  | .finite neg m e =>
    let d := Double.shortest m e
    if m = 0 || (-4 ≤ d.point - 1 && d.point - 1 < 6) then x.text
    else (if neg then "-" else "") ++ exponentText d
  | _ => x.text

mutual

def Detail.show : Detail → String
  | .nothing => "<nil>"
  | .error text => text
  | .text s => s
  | .bool b => if b then "true" else "false"
  | .number x => numberText x
  | .list items => "[" ++ String.intercalate " " (showItems items) ++ "]"
  | .record fields => "map[" ++ String.intercalate " " (showFields fields) ++ "]"

def showItems : List Detail → List String
  | [] => []
  | d :: rest => d.show :: showItems rest

def showFields : List (String × Detail) → List String
  | [] => []
  | (name, d) :: rest => s!"{name}:{d.show}" :: showFields rest

end

/-- The text of a refusal. -/
def refusalText : List Detail → String
  | [] => "connect_error without details"
  | .nothing :: _ => "connect_error without details"
  | d :: _ => d.show

end CypherBlocks.Preview
