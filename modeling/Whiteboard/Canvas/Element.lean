import Whiteboard.Canvas.Transform

/-!
# Elements

What lies on the canvas: shapes, texts and arrows. A text may be bound to a container and an arrow to the shapes at its
ends; shapes in turn list the texts and arrows bound to them.
-/

namespace Whiteboard

namespace Element

/-- What an element shows. -/
inductive Kind where
  | rectangle
  | diamond
  | ellipse
  /-- A text, and the element it is bound to. -/
  | text (content : String) (container? : Option String) (fontSize : Float32)
  /-- An arrow, and the elements at its two ends. -/
  | arrow (start? finish? : Option String) (dashed : Bool)
  deriving DecidableEq, Repr

/-- The name of a kind. -/
def Kind.name : Kind → String
  | rectangle => "rectangle"
  | diamond => "diamond"
  | ellipse => "ellipse"
  | text _ _ _ => "text"
  | arrow _ _ _ => "arrow"

/-- What may be bound to an element. -/
inductive BoundKind where
  | text
  | arrow
  deriving DecidableEq, Repr

/-- The name of what is bound. -/
def BoundKind.name : BoundKind → String
  | text => "text"
  | arrow => "arrow"

/-- The bound kind with the given name. -/
def BoundKind.ofName? (name : String) : Option BoundKind := [text, arrow].find? (·.name == name)

/-- A reference to a bound element. -/
structure Bound where
  id : String
  kind : BoundKind
  deriving DecidableEq, Repr

end Element

/-- An element of the canvas. -/
structure Element where
  id : String
  kind : Element.Kind
  transform : Transform
  /-- The texts and arrows bound to the element. -/
  bound : List Element.Bound := []
  /-- The visual groups that the element belongs to. -/
  groupIds : List String := []
  deriving DecidableEq, Repr

namespace Element

/-- The size of the letters of a label. -/
def labelFontSize : Float32 := 16

/-- A shape stands for a node or a group. -/
def isShape (e : Element) : Bool :=
  match e.kind with
  | .rectangle | .diamond | .ellipse => true
  | _ => false

/-- Whether the element is an arrow. -/
def isArrow (e : Element) : Bool :=
  match e.kind with
  | .arrow _ _ _ => true
  | _ => false

/-- The content of a text. -/
def text? (e : Element) : Option String :=
  match e.kind with
  | .text content _ _ => some content
  | _ => none

/-- The element that a text is bound to. -/
def container? (e : Element) : Option String :=
  match e.kind with
  | .text _ container? _ => container?
  | _ => none

/-- The elements at the ends of an arrow. -/
def bindings? (e : Element) : Option (Option String × Option String) :=
  match e.kind with
  | .arrow start? finish? _ => some (start?, finish?)
  | _ => none

/-- The two elements that an arrow joins, if it is bound at both ends. -/
def ends? (e : Element) : Option (String × String) :=
  match e.kind with
  | .arrow (some start) (some finish) _ => some (start, finish)
  | _ => none

/-- Whether the element is an arrow with a dashed stroke. -/
def isDashed (e : Element) : Bool :=
  match e.kind with
  | .arrow _ _ dashed => dashed
  | _ => false

/-- The role of a shape. -/
inductive Role where
  | groupContainer
  | regularNode
  deriving DecidableEq, Repr

/-- The name of a role. -/
def Role.name : Role → String
  | groupContainer => "groupContainer"
  | regularNode => "regularNode"

/-- A rectangle of at least this area is a container. -/
def containerMinArea : Float32 := 80000

/-- A rectangle with a side of at least this length may be a container by its proportions. -/
def containerMinSide : Float32 := 300

/-- A rectangle this many times as long as it is wide may be a container by its proportions. -/
def containerMinAspect : Float32 := 3

/-- A rectangle large enough, or long and narrow enough, to be a container. -/
def hasContainerSize (t : Transform) : Bool :=
  let width := t.width.abs
  let height := t.height.abs
  let long := greater width height
  let short := lesser width height
  let aspect := if 0 < short then long / short else 1 / 0
  decide (containerMinArea ≤ width * height) ||
  (decide (containerMinSide ≤ long) && decide (containerMinAspect ≤ aspect))

/-- The role of a shape by its size: only rectangles can be containers. Texts and arrows have no role. -/
def role? (e : Element) : Option Role :=
  match e.kind with
  | .rectangle => some (if hasContainerSize e.transform then .groupContainer else .regularNode)
  | .diamond | .ellipse => some .regularNode
  | .text _ _ _ | .arrow _ _ _ => none

/-- The shape stands for a node. -/
def isNode (e : Element) : Bool := e.role? == some .regularNode

/-- The shape stands for a group. -/
def isContainer (e : Element) : Bool := e.role? == some .groupContainer

end Element

end Whiteboard
