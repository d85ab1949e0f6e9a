import Whiteboard.Canvas.Context
import Whiteboard.Json.Writer

/-!
# Contexts as JSON
-/

namespace Whiteboard

open Json

namespace Context

/-- A node as a value. -/
def Node.toJson (n : Node) : Json :=
  record [("index", nat n.index), ("type", string n.kind), ("label", string n.label),
    ("position", record [("x", single n.transform.x), ("y", single n.transform.y)]),
    ("size", record [("width", single n.transform.width), ("height", single n.transform.height)])]

/-- An edge as a value; without a label it has no such member. -/
def Edge.toJson (e : Edge) : Json :=
  record ([("sourceIndex", nat e.source), ("targetIndex", nat e.target)] ++ optionalMember "label" string e.label?)

/-- A group as a value. -/
def Group.toJson (g : Group) : Json := record [("label", string g.label), ("nodeIndices", list nat g.members)]

/-- A context as a value. -/
def toJson (c : Context) : Json :=
  record [("nodes", list Node.toJson c.nodes), ("edges", list Edge.toJson c.edges),
    ("groups", list Group.toJson c.groups)]

end Context

end Whiteboard
