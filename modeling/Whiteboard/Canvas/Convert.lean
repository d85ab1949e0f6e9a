import Whiteboard.Canvas.Layout

/-!
# Elements of a skeleton

The elements that a layout makes from a skeleton: each container with its text, each node with its text, then the arrows
with theirs. Every element has an id from a supply of fresh ones, and the text bound to a shape is the id it stands for.
-/

namespace Whiteboard

namespace Convert

/-- The kind of element that shows a shape. -/
def kindOf : Shape → Element.Kind
  | .decision => .diamond
  | .circle | .ellipse => .ellipse
  | .rectangle | .rounded | .stadium | .hexagon => .rectangle

/-- A text bound to an element, in the same place. -/
def labelOf (id content owner : String) (transform : Transform) : Element :=
  { id, kind := .text content (some owner) Element.labelFontSize, transform }

/-- The reference of an element to its text. -/
def boundText (id : String) : Element.Bound := ⟨id, .text⟩

/-- A container and its text; `n` is the place of the container among all elements. -/
def containerElements (fresh : Nat → String) (n : Nat) (group : String) (box : Transform) : List Element :=
  [{ id := fresh n, kind := .rectangle, transform := box, bound := [boundText (fresh (n + 1))] },
    labelOf (fresh (n + 1)) group (fresh n) box]

/-- An edge with the shapes at its ends, by their places among the placed nodes. -/
structure JoinedEdge where
  edge : Skeleton.Edge
  source : Nat
  target : Nat
  deriving DecidableEq, Repr

/-- The edges whose two ends are nodes. -/
def joinedEdges (placed : List PlacedNode) (edges : List Skeleton.Edge) : List JoinedEdge :=
  edges.filterMap fun e =>
    match Layout.lastIndex? (·.node.id == e.source) placed, Layout.lastIndex? (·.node.id == e.target) placed with
    | some i, some j => some ⟨e, i, j⟩
    | _, _ => none

/-- The edges with the places of their arrows among all elements, the first of them at `n`; a label takes the place
after its arrow. -/
def numberEdges (n : Nat) : List JoinedEdge → List (Nat × JoinedEdge)
  | [] => []
  | e :: rest => (n, e) :: numberEdges (if e.edge.label?.isSome then n + 2 else n + 1) rest

/-- The arrow of an edge, and its label if it has one. The arrow spans the box between the middles of its two shapes. -/
def arrowElements (fresh : Nat → String) (shapeId : Nat → String) (transformOf : Nat → Transform) (n : Nat)
    (e : JoinedEdge) : List Element :=
  let start := (transformOf e.source).center
  let finish := (transformOf e.target).center
  let transform : Transform := {
    x := lesser start.x finish.x
    y := lesser start.y finish.y
    width := (finish.x - start.x).abs
    height := (finish.y - start.y).abs }
  { id := fresh n
    kind := .arrow (some (shapeId e.source)) (some (shapeId e.target)) e.edge.dashed
    transform
    bound := e.edge.label?.elim [] fun _ => [boundText (fresh (n + 1))] } ::
  e.edge.label?.elim [] fun label => [labelOf (fresh (n + 1)) label (fresh n) transform]

/-- The shape of a placed node and its text. The shape lists the arrows that end at it, then its text. -/
def nodeElements (fresh : Nat → String) (arrows : List (Nat × JoinedEdge)) (n i : Nat) (p : PlacedNode) :
    List Element :=
  let incident := arrows.filter fun (_, e) => e.source == i || e.target == i
  [{ id := fresh n
     kind := kindOf p.node.shape
     transform := p.transform
     bound := incident.map (fun (k, _) => ⟨fresh k, .arrow⟩) ++ [boundText (fresh (n + 1))]
     groupIds := p.node.group?.toList },
    labelOf (fresh (n + 1)) p.node.id (fresh n) p.transform]

end Convert

/-- The elements of a skeleton; the one at place `n` of the result has the id `fresh n`. -/
def Layout.convert (c : Layout) (fresh : Nat → String) (s : Skeleton) : List Element :=
  let placed := c.placed s
  let containers := c.containers s
  let firstShape := 2 * containers.length
  let firstArrow := firstShape + 2 * placed.length
  let arrows := Convert.numberEdges firstArrow (Convert.joinedEdges placed s.edges)
  let places := placed.toArray
  let transformOf i := (places[i]?.map (·.transform)).getD ⟨0, 0, 0, 0, 0⟩
  let shapeId i := fresh (firstShape + 2 * i)
  (containers.mapIdx fun k (group, box) => Convert.containerElements fresh (2 * k) group box).flatten ++
  (placed.mapIdx fun i p => Convert.nodeElements fresh arrows (firstShape + 2 * i) i p).flatten ++
  arrows.flatMap fun (n, e) => Convert.arrowElements fresh shapeId transformOf n e

/-- The id of the element at place `n` where ids are numbered. -/
def numberedId (n : Nat) : String := "gen-" ++ toString n

end Whiteboard
