import Whiteboard.Diagram.Document
import Whiteboard.Json.Value

/-!
# Documents as JSON
-/

namespace Whiteboard

open Json

namespace Document

/-- A node as a value. -/
def Node.toJson (n : Node) : Json :=
  record [("id", string n.id), ("label", option string n.label?), ("shape", string n.shape.name),
    ("group", option string n.group?), ("declared", bool n.isDeclared), ("line", nat n.line)]

/-- An edge as a value. -/
def Edge.toJson (e : Edge) : Json :=
  record [("from", string e.source), ("to", string e.target), ("label", option string e.label?),
    ("dashed", bool e.dashed), ("line", nat e.line)]

/-- A group as a value. -/
def Group.toJson (g : Group) : Json := record [("id", string g.id), ("label", string g.label), ("line", nat g.line)]

/-- A declaration as a value. -/
def Declaration.toJson (d : Declaration) : Json :=
  record [("id", string d.id), ("label", string d.label), ("shape", string d.shape.name), ("line", nat d.line)]

/-- A document as a value. -/
def toJson (doc : Document) : Json :=
  record [("direction", option (string ·.token) doc.direction?), ("nodes", list Node.toJson doc.nodes),
    ("edges", list Edge.toJson doc.edges), ("groups", list Group.toJson doc.groups),
    ("declarations", list Declaration.toJson doc.declarations)]

end Document

end Whiteboard
