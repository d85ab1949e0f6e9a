import Whiteboard.Canvas.Skeleton
import Whiteboard.Json.Decode

/-!
# Skeletons as JSON

Nodes and edges are rows: arrays of their fields in order.
-/

namespace Whiteboard

open Json

/-- The edge that a row of id, source and target describes. -/
def Remap.Edge.ofJson? : Json → Option Remap.Edge
  | .array [.string id, .string source, .string target] => some ⟨id, source, target⟩
  | _ => none

/-- An edge as a row of id, source and target. -/
def Remap.Edge.toJson (e : Remap.Edge) : Json := array [string e.id, string e.source, string e.target]

namespace Skeleton

/-- The node that a row of id, shape and group describes. -/
def Node.ofJson? : Json → Option Node
  | .array [.string id, .string shape, group] => do return ⟨id, ← Shape.ofName? shape, ← group.toOption? toText?⟩
  | _ => none

/-- The edge that a row of id, source, target, label and dash describes. -/
def Edge.ofJson? : Json → Option Edge
  | .array [.string id, .string source, .string target, label, .bool dashed] => do
    return ⟨id, source, target, ← label.toOption? toText?, dashed⟩
  | _ => none

/-- The skeleton that a value describes. -/
def ofJson? (j : Json) : Option Skeleton := do
  let f ← j.toFields? ["direction", "nodes", "edges", "groups"]
  return {
    direction := ← f.required "direction" (toChoice? Direction.ofToken?)
    nodes := ← f.required "nodes" (toList? Node.ofJson?)
    edges := ← f.required "edges" (toList? Edge.ofJson?)
    groups := ← f.required "groups" (toList? toText?) }

/-- A node as a row. -/
def Node.toJson (n : Node) : Json := array [string n.id, string n.shape.name, option string n.group?]

/-- An edge as a row. -/
def Edge.toJson (e : Edge) : Json :=
  array [string e.id, string e.source, string e.target, option string e.label?, bool e.dashed]

/-- A skeleton as a value. -/
def toJson (s : Skeleton) : Json :=
  record [("direction", string s.direction.token), ("nodes", list Node.toJson s.nodes),
    ("edges", list Edge.toJson s.edges), ("groups", list string s.groups)]

end Skeleton

end Whiteboard
