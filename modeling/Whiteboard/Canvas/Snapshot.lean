import Whiteboard.Canvas.Scene
import Whiteboard.Diagram.Document

/-!
# Snapshots

A snapshot is what a scene says as a diagram: nodes with their labels and groups, and the edges between them.
-/

namespace Whiteboard

namespace Snapshot

/-- A node on the canvas. -/
structure Node where
  id : String
  label : String
  shape : Shape
  /-- The innermost container around the node. -/
  group? : Option String
  deriving DecidableEq, Repr

/-- A container with a node in it. -/
structure Group where
  id : String
  label : String
  deriving DecidableEq, Repr

/-- An edge on the canvas. -/
structure Edge where
  source : String
  target : String
  label? : Option String
  dashed : Bool
  deriving DecidableEq, Repr

end Snapshot

/-- A scene as a diagram. -/
structure Snapshot where
  /-- The direction of the text that the canvas was made from. -/
  direction : Direction := .topDown
  nodes : List Snapshot.Node := []
  edges : List Snapshot.Edge := []
  groups : List Snapshot.Group := []
  deriving DecidableEq, Repr

namespace Snapshot

/-- The ids of the nodes, in order. -/
def nodeIds (s : Snapshot) : List String := s.nodes.map (·.id)

/-- The endpoints of the edges, in order. -/
def pairs (s : Snapshot) : List (String × String) := s.edges.map fun e => (e.source, e.target)

/-- The containers that can stand for groups of a diagram text: those whose ids can be written in one. -/
def namedContainers (s : Scene) : List Element := s.containers.filter fun c => isSemanticId c.id

/-- The area `a` is smaller than the area `b`; an area that is no number is smaller than all others. -/
def isSmallerArea (a b : Float32) : Bool := if a.isNaN then !b.isNaN else decide (a < b)

/-- The first element with the smallest area. -/
def smallest? : List Element → Option Element
  | [] => none
  | e :: rest => some <| rest.foldl
      (fun best c => if isSmallerArea c.transform.area best.transform.area then c else best) e

/-- The smallest container around a node. -/
def innermost? (containers : List Element) (node : Element) : Option Element :=
  smallest? (containers.filter fun c => c.transform.encloses node.transform)

/-- The shape that a kind of element shows. -/
def shapeOf : Element.Kind → Shape
  | .diamond => .decision
  | .ellipse => .circle
  | _ => .rectangle

/-- A node as it is on the canvas. -/
def nodeOf (s : Scene) (e : Element) : Node :=
  ⟨e.id, s.labelOf e.id, shapeOf e.kind, (innermost? (namedContainers s) e).map (·.id)⟩

/-- The edge of an arrow, if both its ends are among the given nodes. -/
def edge? (s : Scene) (ids : List String) (e : Element) : Option Edge := do
  let (start, finish) ← e.ends?
  if ids.contains start && ids.contains finish then some ⟨start, finish, s.boundText? e.id, e.isDashed⟩ else none

/-- What a scene says as a diagram; the direction is that of the text it was made from, if there is one. -/
def ofCanvas (s : Scene) (diagramText? : Option String) : Snapshot :=
  let nodes := s.nodes.map (nodeOf s)
  { direction := (diagramText?.bind fun text => (Document.parse text).direction?).getD .topDown
    nodes
    edges := s.elements.filterMap (edge? s (nodes.map (·.id)))
    groups := ((namedContainers s).filter fun c => nodes.any (·.group? == some c.id)).map fun c =>
      ⟨c.id, s.labelOf c.id⟩ }

end Snapshot

end Whiteboard
