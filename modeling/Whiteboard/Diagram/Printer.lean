import Whiteboard.Diagram.Label
import Whiteboard.Diagram.Spec

/-!
# Writing a description as diagram text

A header line, then the nodes outside every group, then each group with its members, then the edges. A node whose group
is not listed stands outside every group; a group without members is still written.
-/

namespace Whiteboard

/-- The keyword of a header line. -/
def headerKeyword : String := "flowchart"

/-- The arrow of an edge. -/
def arrowToken (dashed : Bool) : String := if dashed then "-.->" else "-->"

/-- The header line of a diagram. -/
def headerLine (direction : Direction) : String := headerKeyword ++ " " ++ direction.token

/-- A node with its label between the brackets of its shape. -/
def nodeLine (id label : String) (shape : Shape) : String :=
  id ++ shape.opener ++ "\"" ++ Label.escape label ++ "\"" ++ shape.closer

/-- The line that opens a group. -/
def groupOpenLine (id label : String) : String := "subgraph " ++ id ++ "[\"" ++ Label.escape label ++ "\"]"

/-- The line that closes a group. -/
def groupCloseLine : String := "end"

/-- The line of an edge; a label with nothing left to show is left out. -/
def edgeLine (source target : String) (label? : Option String) (dashed : Bool) : String :=
  let label := ((label?.map Label.sanitize).filter (· != "")).elim "" fun l => "|" ++ l ++ "|"
  source ++ " " ++ arrowToken dashed ++ label ++ " " ++ target

/-- A line at the given depth of nesting, four spaces for each level. -/
def indented (depth : Nat) (line : String) : String := String.ofList (List.replicate (4 * depth) ' ') ++ line

namespace Spec

/-- Whether the node stands in a group that the description lists. -/
def isGrouped (spec : Spec) (node : Node) : Bool := node.group?.any fun g => spec.groups.any (·.id == g)

/-- The members of a group, in order. -/
def members (spec : Spec) (group : String) : List Node := spec.nodes.filter (·.group? == some group)

/-- The line of a node. -/
def Node.line (node : Node) : String := nodeLine node.id node.label node.shape

/-- The line of an edge. -/
def Edge.line (edge : Edge) : String := edgeLine edge.source edge.target edge.label? edge.dashed

/-- The lines of a group: its opening, its members and its closing. -/
def groupLines (spec : Spec) (group : Group) : List String :=
  indented 1 (groupOpenLine group.id group.label) ::
  (spec.members group.id).map (indented 2 ·.line) ++ [indented 1 groupCloseLine]

/-- The lines of a description. -/
def toLines (spec : Spec) : List String :=
  headerLine spec.direction ::
  (spec.nodes.filter (!spec.isGrouped ·)).map (indented 1 ·.line) ++
  spec.groups.flatMap spec.groupLines ++
  spec.edges.map (indented 1 ·.line)

/-- The diagram text of a description, every line ended by a line feed. -/
def render (spec : Spec) : String := String.join (spec.toLines.map (· ++ "\n"))

end Spec

end Whiteboard
