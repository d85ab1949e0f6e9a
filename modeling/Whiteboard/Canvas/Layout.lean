import Whiteboard.Canvas.Skeleton

/-!
# Layered layout

Nodes stand in layers along the direction of the diagram, each layer beyond those from which edges lead to it. Within a
layer nodes are ordered by group, those in none first, and then by their order in the diagram; their slots are numbered
from zero.
-/

namespace Whiteboard

/-- Sizes and distances of a layout. -/
structure Layout where
  nodeWidth : Float32 := 160
  nodeHeight : Float32 := 60
  /-- The distance between nodes of one layer. -/
  nodeGap : Float32 := 60
  /-- The distance between layers. -/
  layerGap : Float32 := 100
  /-- The distance between a container and its members. -/
  groupPadding : Float32 := 40
  deriving DecidableEq, Repr

/-- A node that has been given its place. -/
structure PlacedNode where
  node : Skeleton.Node
  layer : Nat
  slot : Nat
  transform : Transform
  deriving DecidableEq, Repr

namespace Layout

/-- The last place in a list where `p` holds. -/
def lastIndex? (p : α → Bool) (xs : List α) : Option Nat :=
  (xs.reverse.findIdx? p).map fun k => xs.length - 1 - k

/-- The edges between nodes, as pairs of places in the list of nodes; loops and edges from or to anything else are left
out. -/
def links (s : Skeleton) : List (Nat × Nat) :=
  s.edges.filterMap fun e =>
    match lastIndex? (·.id == e.source) s.nodes, lastIndex? (·.id == e.target) s.nodes with
    | some i, some j => if i = j then none else some (i, j)
    | _, _ => none

/-- The target of a link moves beyond its source, as long as there are more layers than nodes to fill them. -/
def relaxLink (n : Nat) (layers : Array Nat) (link : Nat × Nat) : Array Nat :=
  let next := layers.getD link.1 0 + 1
  if layers.getD link.2 0 < next && next < n then layers.setIfInBounds link.2 next else layers

/-- Every link relaxed once, in order. -/
def relax (n : Nat) (links : List (Nat × Nat)) (layers : Array Nat) : Array Nat := links.foldl (relaxLink n) layers

/-- Relaxing round after round, until nothing changes or the rounds are used up. -/
def settle (n : Nat) (links : List (Nat × Nat)) : Nat → Array Nat → Array Nat
  | 0, layers => layers
  | rounds + 1, layers =>
    let next := relax n links layers
    if next = layers then layers else settle n links rounds next

/-- The layer of each node. -/
def layers (s : Skeleton) : Array Nat :=
  settle s.nodes.length (links s) s.nodes.length (Array.replicate s.nodes.length 0)

/-- The place of a node among the groups: zero outside every listed group, else one more than that of its group. -/
def groupRank (s : Skeleton) (node : Skeleton.Node) : Nat :=
  (node.group?.bind fun g => lastIndex? (· == g) s.groups).elim 0 (· + 1)

/-- A node with what decides about its place. -/
structure Entry where
  node : Skeleton.Node
  layer : Nat
  rank : Nat
  deriving DecidableEq, Repr

/-- Entries come in the order of their layers, and within a layer of their groups. -/
def Entry.before (a b : Entry) : Bool := a.layer < b.layer || (a.layer == b.layer && a.rank ≤ b.rank)

/-- The nodes in the order in which they are placed; among equals the order of the diagram stays. -/
def entries (s : Skeleton) : List Entry :=
  let layers := layers s
  (s.nodes.mapIdx fun i node => ⟨node, layers.getD i 0, groupRank s node⟩).mergeSort Entry.before

/-- The upper left corner of a node. In a reversed direction the layers are counted from the last one. -/
def place (c : Layout) (direction : Direction) (layer slot maxLayer : Nat) : Point :=
  let layer := Float32.ofNat (if direction.isReversed then maxLayer - layer else layer)
  let slot := Float32.ofNat slot
  if direction.isHorizontal then ⟨layer * (c.nodeWidth + c.layerGap), slot * (c.nodeHeight + c.nodeGap)⟩
  else ⟨slot * (c.nodeWidth + c.nodeGap), layer * (c.nodeHeight + c.layerGap)⟩

/-- The entries placed one after the other; the slot of a node is the number of nodes before it in its layer. -/
def placeEntries (c : Layout) (direction : Direction) (maxLayer : Nat) (before : List Nat) :
    List Entry → List PlacedNode
  | [] => []
  | e :: rest =>
    let slot := before.count e.layer
    let corner := c.place direction e.layer slot maxLayer
    ⟨e.node, e.layer, slot, { x := corner.x, y := corner.y, width := c.nodeWidth, height := c.nodeHeight }⟩ ::
    placeEntries c direction maxLayer (e.layer :: before) rest

/-- The nodes of a skeleton in their places. -/
def placed (c : Layout) (s : Skeleton) : List PlacedNode :=
  let entries := entries s
  let maxLayer := (entries.map (·.layer)).foldl max 0
  placeEntries c s.direction maxLayer [] entries

/-- A container is never smaller than this in either direction, so that it is told from a node by its size. -/
def containerSide : Float32 := 300

/-- The box of a container around its members, behind them in paint order; none without members. -/
def containerBox? (c : Layout) (members : List Transform) : Option Transform :=
  match members with
  | [] => none
  | first :: _ =>
    let e := Transform.edgesOf first members
    some {
      x := e.left - c.groupPadding
      y := e.top - c.groupPadding
      width := greater (e.right - e.left + 2 * c.groupPadding) containerSide
      height := greater (e.bottom - e.top + 2 * c.groupPadding) containerSide
      zIndex := -1 }

/-- The listed groups that have members, each with its box. -/
def containers (c : Layout) (s : Skeleton) : List (String × Transform) :=
  let placed := c.placed s
  s.groups.filterMap fun g =>
    (c.containerBox? ((placed.filter (·.node.group? == some g)).map (·.transform))).map (g, ·)

end Layout

end Whiteboard
