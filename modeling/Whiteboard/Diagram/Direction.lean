/-!
# Direction of flow

The way the layers of a diagram advance, and the token that names it in a header line.
-/

namespace Whiteboard

/-- The way the layers of a diagram advance. -/
inductive Direction where
  | topDown
  | leftRight
  | bottomUp
  | rightLeft
  deriving DecidableEq, Repr, Inhabited

namespace Direction

/-- Every direction, in the order in which they are listed to a reader. -/
def all : List Direction := [topDown, leftRight, bottomUp, rightLeft]

/-- The token of a direction in a header line. -/
def token : Direction → String
  | topDown => "TD"
  | leftRight => "LR"
  | bottomUp => "BT"
  | rightLeft => "RL"

/-- The direction a token names; the spelling is exact. -/
def ofToken? (token : String) : Option Direction := all.find? (·.token == token)

/-- Layers advance along the horizontal axis. -/
def isHorizontal : Direction → Bool
  | leftRight | rightLeft => true
  | topDown | bottomUp => false

/-- Layers advance towards decreasing coordinates. -/
def isReversed : Direction → Bool
  | bottomUp | rightLeft => true
  | topDown | leftRight => false

/-- What is said of a token that names no direction. -/
def unknownTokenMessage (token : String) : String :=
  "unsupported direction `" ++ token ++ "` (expected TD, LR, BT or RL)"

@[simp] theorem ofToken?_token (d : Direction) : ofToken? d.token = some d := by
  cases d <;> decide

end Direction

end Whiteboard
