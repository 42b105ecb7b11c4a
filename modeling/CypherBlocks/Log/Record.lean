/-!
# Log records

What the program tells about its work: a level, a message and named values.
-/

namespace CypherBlocks.Log

inductive Level where
  | debug | info | warn | error
  deriving Repr, DecidableEq

namespace Level

def name : Level → String
  | .debug => "DEBUG"
  | .info => "INFO"
  | .warn => "WARN"
  | .error => "ERROR"

/-- How severe a level is. -/
def rank : Level → Nat
  | .debug => 0
  | .info => 1
  | .warn => 2
  | .error => 3

end Level

inductive Item where
  | text (s : String)
  | whole (n : Int)
  | bool (b : Bool)
  deriving Repr, DecidableEq

def Item.plain : Item → String
  | .text s => s
  | .whole n => toString n
  | .bool b => if b then "true" else "false"

structure Record where
  level : Level
  message : String
  items : List (String × Item)
  deriving Repr, DecidableEq

def debug (message : String) (items : List (String × Item)) : Record := ⟨.debug, message, items⟩

end CypherBlocks.Log
