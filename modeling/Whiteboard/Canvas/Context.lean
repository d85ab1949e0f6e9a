import Whiteboard.Canvas.Scene

/-!
# Views of a scene for a generator

`Context` describes a scene without ids, its nodes known by their places in a list. `LiveIds` holds the ids, which a new
diagram has to respect.
-/

namespace Whiteboard

namespace Context

/-- A node and its place in the list of nodes. -/
structure Node where
  index : Nat
  kind : String
  label : String
  transform : Transform
  deriving DecidableEq, Repr

/-- An edge between two nodes by their places. -/
structure Edge where
  source : Nat
  target : Nat
  label? : Option String
  deriving DecidableEq, Repr

/-- A container and the places of the nodes in it. -/
structure Group where
  label : String
  members : List Nat
  deriving DecidableEq, Repr

end Context

/-- A scene without ids. -/
structure Context where
  nodes : List Context.Node := []
  edges : List Context.Edge := []
  groups : List Context.Group := []
  deriving DecidableEq, Repr

namespace Context

/-- The last place of an id in a list. -/
def lastPlace? (id : String) (ids : List String) : Option Nat :=
  (ids.reverse.findIdx? (· == id)).map fun k => ids.length - 1 - k

/-- The edge of an arrow, if both its ends are nodes. -/
def edge? (s : Scene) (ids : List String) (e : Element) : Option Edge := do
  let (start, finish) ← e.ends?
  return ⟨← lastPlace? start ids, ← lastPlace? finish ids, s.boundText? e.id⟩

/-- The group of a container, if there is a node in it. -/
def group? (s : Scene) (container : Element) : Option Group :=
  let inside := s.nodes.zipIdx.filter fun (node, _) => container.transform.encloses node.transform
  if inside.isEmpty then none else some ⟨s.labelOf container.id, inside.map (·.2)⟩

/-- The nodes of a scene, the arrows between them, and the containers with a node in them. -/
def ofScene (s : Scene) : Context where
  nodes := s.nodes.mapIdx fun i e => ⟨i, e.kind.name, s.labelOf e.id, e.transform⟩
  edges := s.elements.filterMap (edge? s (s.nodes.map (·.id)))
  groups := s.containers.filterMap (group? s)

/-- There are no nodes. -/
def isEmpty (c : Context) : Bool := c.nodes.isEmpty

end Context

/-- The ids on a canvas. -/
structure LiveIds where
  /-- The ids of nodes and containers. -/
  nodeIds : List String := []
  /-- The ids of arrows. -/
  edgeIds : List String := []
  /-- The id of the first shape with each label. -/
  labelToId : List (String × String) := []
  deriving DecidableEq, Repr

/-- Pairs without those whose first part has come before. -/
def firstPairs (pairs : List (String × String)) : List (String × String) :=
  pairs.foldl (fun kept p => if kept.any (·.1 == p.1) then kept else kept ++ [p]) []

/-- The ids of a scene. -/
def LiveIds.ofScene (s : Scene) : LiveIds where
  nodeIds := ((s.elements.filter (·.isShape)).map (·.id)).eraseDups
  edgeIds := ((s.elements.filter (·.isArrow)).map (·.id)).eraseDups
  labelToId := firstPairs ((s.elements.filter (·.isShape)).filterMap fun e => (s.boundText? e.id).map (·, e.id))

end Whiteboard
