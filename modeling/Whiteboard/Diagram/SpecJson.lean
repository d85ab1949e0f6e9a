import Whiteboard.Diagram.Spec
import Whiteboard.Json.Decode
import Whiteboard.Json.Writer

/-!
# Descriptions as JSON

The form in which a description is handed over. Absent labels and groups are left out; directions and shapes go by
their names.
-/

namespace Whiteboard

open Json

namespace Spec

/-- The node that a value describes. -/
def Node.ofJson? (j : Json) : Option Node := do
  let f ← j.toFields? ["id", "label", "shape", "groupId"]
  return {
    id := ← f.required "id" toText?
    label := ← f.required "label" toText?
    shape := ← f.defaulted "shape" .rectangle (toChoice? Shape.ofName?)
    group? := ← f.defaulted "groupId" none (toOption? toText?) }

/-- The group that a value describes. -/
def Group.ofJson? (j : Json) : Option Group := do
  let f ← j.toFields? ["id", "label"]
  return { id := ← f.required "id" toText?, label := ← f.required "label" toText? }

/-- The edge that a value describes. -/
def Edge.ofJson? (j : Json) : Option Edge := do
  let f ← j.toFields? ["from", "to", "label", "dashed"]
  return {
    source := ← f.required "from" toText?
    target := ← f.required "to" toText?
    label? := ← f.defaulted "label" none (toOption? toText?)
    dashed := ← f.defaulted "dashed" false toBool? }

/-- The description that a value holds. -/
def ofJson? (j : Json) : Option Spec := do
  let f ← j.toFields? ["direction", "nodes", "groups", "edges"]
  return {
    direction := ← f.defaulted "direction" .topDown (toChoice? Direction.ofToken?)
    nodes := ← f.required "nodes" (toList? Node.ofJson?)
    groups := ← f.defaulted "groups" [] (toList? Group.ofJson?)
    edges := ← f.defaulted "edges" [] (toList? Edge.ofJson?) }

/-- The description that a text spells. -/
def parse? (text : String) : Option Spec := (Json.parse? text).bind ofJson?

/-- A node as a value. -/
def Node.toJson (n : Node) : Json :=
  record ([("id", string n.id), ("label", string n.label), ("shape", string n.shape.name)] ++
    optionalMember "groupId" string n.group?)

/-- A group as a value. -/
def Group.toJson (g : Group) : Json := record [("id", string g.id), ("label", string g.label)]

/-- An edge as a value. -/
def Edge.toJson (e : Edge) : Json :=
  record ([("from", string e.source), ("to", string e.target)] ++ optionalMember "label" string e.label? ++
    [("dashed", bool e.dashed)])

/-- A description as a value. -/
def toJson (spec : Spec) : Json :=
  record [
    ("direction", string spec.direction.token),
    ("nodes", list Node.toJson spec.nodes),
    ("groups", list Group.toJson spec.groups),
    ("edges", list Edge.toJson spec.edges)]

end Spec

end Whiteboard
