/-!
# Node shapes

A shape is written as a pair of brackets around the label. An ellipse has no brackets of its own and is written as a
circle.
-/

namespace Whiteboard

/-- The outline of a node. -/
inductive Shape where
  | rectangle
  | rounded
  | stadium
  | decision
  | circle
  | ellipse
  | hexagon
  deriving DecidableEq, Repr, Inhabited

namespace Shape

/-- Every shape. -/
def all : List Shape := [rectangle, rounded, stadium, decision, circle, ellipse, hexagon]

/-- The name of a shape. -/
def name : Shape → String
  | rectangle => "rectangle"
  | rounded => "rounded"
  | stadium => "stadium"
  | decision => "decision"
  | circle => "circle"
  | ellipse => "ellipse"
  | hexagon => "hexagon"

/-- The shape with the given name. -/
def ofName? (name : String) : Option Shape := all.find? (·.name == name)

/-- The shape as it can be written: an ellipse becomes a circle. -/
def normalized : Shape → Shape
  | ellipse => circle
  | shape => shape

/-- The bracket before the label. -/
def opener : Shape → String
  | rectangle => "["
  | rounded => "("
  | stadium => "(["
  | decision => "\x7b"
  | circle | ellipse => "(("
  | hexagon => "\x7b\x7b"

/-- The bracket after the label. -/
def closer : Shape → String
  | rectangle => "]"
  | rounded => ")"
  | stadium => "])"
  | decision => "\x7d"
  | circle | ellipse => "))"
  | hexagon => "\x7d\x7d"

@[simp] theorem normalized_normalized (s : Shape) : s.normalized.normalized = s.normalized := by
  cases s <;> rfl

@[simp] theorem opener_normalized (s : Shape) : s.normalized.opener = s.opener := by
  cases s <;> rfl

@[simp] theorem closer_normalized (s : Shape) : s.normalized.closer = s.closer := by
  cases s <;> rfl

end Shape

end Whiteboard
