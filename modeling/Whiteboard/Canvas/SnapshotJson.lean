import Whiteboard.Canvas.Merge
import Whiteboard.Json.Decode

/-!
# Snapshots and comparisons as JSON
-/

namespace Whiteboard

open Json

namespace Snapshot

/-- The node that a value describes. -/
def Node.ofJson? (j : Json) : Option Node := do
  let f ← j.toFields? ["id", "label", "shape", "group"]
  return {
    id := ← f.required "id" toText?
    label := ← f.required "label" toText?
    shape := ← f.required "shape" (toChoice? Shape.ofName?)
    group? := ← f.defaulted "group" none (toOption? toText?) }

/-- The edge that a value describes. -/
def Edge.ofJson? (j : Json) : Option Edge := do
  let f ← j.toFields? ["from", "to", "label", "dashed"]
  return {
    source := ← f.required "from" toText?
    target := ← f.required "to" toText?
    label? := ← f.optional "label" toText?
    dashed := ← f.required "dashed" toBool? }

/-- The group that a value describes. -/
def Group.ofJson? (j : Json) : Option Group := do
  let f ← j.toFields? ["id", "label"]
  return { id := ← f.required "id" toText?, label := ← f.required "label" toText? }

/-- The snapshot that a value describes. -/
def ofJson? (j : Json) : Option Snapshot := do
  let f ← j.toFields? ["direction", "nodes", "edges", "groups"]
  return {
    direction := ← f.required "direction" (toChoice? Direction.ofToken?)
    nodes := ← f.required "nodes" (toList? Node.ofJson?)
    edges := ← f.required "edges" (toList? Edge.ofJson?)
    groups := ← f.required "groups" (toList? Group.ofJson?) }

/-- A node as a value; outside every group it has no such member. -/
def Node.toJson (n : Node) : Json :=
  record ([("id", string n.id), ("label", string n.label), ("shape", string n.shape.name)] ++
    optionalMember "group" string n.group?)

/-- An edge as a value. -/
def Edge.toJson (e : Edge) : Json :=
  record [("from", string e.source), ("to", string e.target), ("label", option string e.label?),
    ("dashed", bool e.dashed)]

/-- A group as a value. -/
def Group.toJson (g : Group) : Json := record [("id", string g.id), ("label", string g.label)]

/-- A snapshot as a value. -/
def toJson (s : Snapshot) : Json :=
  record [("direction", string s.direction.token), ("nodes", list Node.toJson s.nodes),
    ("edges", list Edge.toJson s.edges), ("groups", list Group.toJson s.groups)]

end Snapshot

namespace Diff

/-- The endpoints of an edge as a value. -/
def pairJson (pair : String × String) : Json := record [("from", string pair.1), ("to", string pair.2)]

/-- A change of a label as a value. -/
def Update.toJson (u : Update) : Json :=
  record [("id", string u.id), ("old_label", string u.oldLabel), ("new_label", string u.newLabel)]

/-- A comparison as a value. -/
def toJson (d : Diff) : Json :=
  record [("nodesToAdd", list string d.nodesToAdd), ("nodesToRemove", list string d.nodesToRemove),
    ("edgesToAdd", list pairJson d.edgesToAdd), ("edgesToRemove", list pairJson d.edgesToRemove),
    ("nodesToUpdate", list Update.toJson d.nodesToUpdate)]

end Diff

end Whiteboard
