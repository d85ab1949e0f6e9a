/-!
# Positions and sizes

Coordinates are single precision numbers, and every sum, product and quotient is rounded as it is computed.
-/

namespace Whiteboard

/-- The smaller of two numbers; one that is not a number does not count, and of two equal ones the first is taken. -/
def lesser (a b : Float32) : Float32 := if a.isNaN then b else if b < a then b else a

/-- The greater of two numbers; one that is not a number does not count, and of two equal ones the first is taken. -/
def greater (a b : Float32) : Float32 := if a.isNaN then b else if a < b then b else a

/-- A point of the canvas. -/
structure Point where
  x : Float32
  y : Float32
  deriving DecidableEq, Repr

/-- The upper left corner of an element, its size and its layer in paint order. -/
structure Transform where
  x : Float32
  y : Float32
  width : Float32
  height : Float32
  zIndex : Int := 0
  deriving DecidableEq, Repr

namespace Transform

/-- The coordinate of the right edge. -/
def right (t : Transform) : Float32 := t.x + t.width

/-- The coordinate of the lower edge. -/
def bottom (t : Transform) : Float32 := t.y + t.height

/-- The point in the middle. -/
def center (t : Transform) : Point := ⟨t.x + t.width / 2, t.y + t.height / 2⟩

/-- The size as an area, whatever the signs of width and height. -/
def area (t : Transform) : Float32 := t.width.abs * t.height.abs

/-- `other` lies within `t`, edges included. -/
def encloses (t other : Transform) : Bool :=
  decide (t.x ≤ other.x) && decide (t.y ≤ other.y) &&
  decide (other.right ≤ t.right) && decide (other.bottom ≤ t.bottom)

/-- The same size at a place further on. -/
def moved (t : Transform) (dx dy : Float32) : Transform := { t with x := t.x + dx, y := t.y + dy }

/-- The edges of a box around transforms: left, top, right and bottom. -/
structure Edges where
  left : Float32
  top : Float32
  right : Float32
  bottom : Float32
  deriving DecidableEq, Repr

/-- The edges of one transform. -/
def edges (t : Transform) : Edges := ⟨t.x, t.y, t.right, t.bottom⟩

/-- The edges of a box that holds one more transform. -/
def Edges.including (e : Edges) (t : Transform) : Edges :=
  ⟨lesser e.left t.x, lesser e.top t.y, greater e.right t.right, greater e.bottom t.bottom⟩

/-- The edges of the box around a first transform and others. -/
def edgesOf (first : Transform) (rest : List Transform) : Edges := rest.foldl Edges.including first.edges

/-- The box around all of the transforms, if there is one. -/
def boundingBox? : List Transform → Option Transform
  | [] => none
  | first :: rest =>
    let e := edgesOf first rest
    some { x := e.left, y := e.top, width := e.right - e.left, height := e.bottom - e.top }

end Transform

end Whiteboard
