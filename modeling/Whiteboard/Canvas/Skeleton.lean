import Whiteboard.Canvas.Remap
import Whiteboard.Diagram.Document

/-!
# Skeletons

A skeleton is a document reduced to ids and structure, with an id for each edge. It is what gets laid out.
-/

namespace Whiteboard

namespace Skeleton

/-- A node of a skeleton. -/
structure Node where
  id : String
  shape : Shape
  group? : Option String
  deriving DecidableEq, Repr

/-- An edge of a skeleton. -/
structure Edge where
  id : String
  source : String
  target : String
  label? : Option String
  dashed : Bool
  deriving DecidableEq, Repr

end Skeleton

/-- The structure that is laid out. -/
structure Skeleton where
  direction : Direction
  nodes : List Skeleton.Node
  edges : List Skeleton.Edge
  /-- The ids of the groups, in the order of their declarations. -/
  groups : List String
  deriving DecidableEq, Repr

namespace Skeleton

/-- The skeleton of a document. Edges take the ids in order, and those beyond the last id are left out. -/
def ofDocument (doc : Document) (edgeIds : List String) : Skeleton where
  direction := doc.direction?.getD .topDown
  nodes := doc.nodes.map fun n => ⟨n.id, n.shape.normalized, n.group?⟩
  edges := (doc.edges.zip edgeIds).map fun (e, id) => ⟨id, e.source, e.target, e.label?, e.dashed⟩
  groups := doc.groups.map (·.id)

/-- The ids that the elements made from the skeleton should have. -/
def intended (s : Skeleton) : Remap.Intended where
  shapes := s.nodes.map (·.id) ++ s.groups
  edges := s.edges.map fun e => ⟨e.id, e.source, e.target⟩

end Skeleton

end Whiteboard
