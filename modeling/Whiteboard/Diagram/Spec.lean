import Whiteboard.Diagram.Direction
import Whiteboard.Diagram.Shape

/-!
# Structured diagram descriptions

A `Spec` is a diagram before it is written as text. `Spec.violations` lists every rule of the schema that it breaks; an
edge may lead to a node of the description or to one that is already on the canvas.
-/

namespace Whiteboard

/-- The pattern that a semantic id matches, as it is shown to a reader. -/
def semanticIdPattern : String := "^[A-Za-z][A-Za-z0-9_]*$"

/-- A character that an identifier may hold. -/
def isIdChar (c : Char) : Bool := c.isAlphanum || c == '_'

/-- A semantic id is a letter followed by letters, digits and underscores, all of them ASCII. -/
def isSemanticId (id : String) : Bool :=
  match id.toList with
  | [] => false
  | c :: cs => c.isAlpha && cs.all isIdChar

namespace Spec

/-- The greatest number of characters in a label of a description. -/
def maxLabelLength : Nat := 200

/-- A node of a description. -/
structure Node where
  id : String
  label : String
  shape : Shape := .rectangle
  group? : Option String := none
  deriving DecidableEq, Repr

/-- A named block of nodes. -/
structure Group where
  id : String
  label : String
  deriving DecidableEq, Repr

/-- An edge between two nodes. -/
structure Edge where
  source : String
  target : String
  label? : Option String := none
  dashed : Bool := false
  deriving DecidableEq, Repr

end Spec

/-- A diagram as a value: its direction and its nodes, groups and edges in order. -/
structure Spec where
  direction : Direction := .topDown
  nodes : List Spec.Node
  groups : List Spec.Group := []
  edges : List Spec.Edge := []
  deriving DecidableEq, Repr

namespace Spec

/-- A rule of the schema that a description breaks. -/
inductive Violation where
  | noNodes
  | invalidNodeId (id : String)
  | duplicateNodeId (id : String)
  | labelTooLong (owner : String) (length : Nat)
  | unknownEndpoint (source target missing : String)
  deriving DecidableEq, Repr

/-- What is said of a violation. -/
def Violation.message : Violation → String
  | noNodes => "diagram declares no nodes"
  | invalidNodeId id => "node id `" ++ id ++ "` must match " ++ semanticIdPattern
  | duplicateNodeId id => "node id `" ++ id ++ "` is declared more than once"
  | labelTooLong owner length =>
    "label of `" ++ owner ++ "` is " ++ toString length ++ " characters (max " ++ toString maxLabelLength ++ ")"
  | unknownEndpoint source target missing =>
    "edge " ++ source ++ " -> " ++ target ++ " references unknown node `" ++ missing ++ "`"

/-- What is said of several violations at once. -/
def rejectionMessage (violations : List Violation) : String :=
  "Diagram spec rejected: " ++ String.intercalate "; " (violations.map Violation.message)

/-- A label longer than the limit breaks the schema. -/
def labelViolations (owner label : String) : List Violation :=
  if label.length > maxLabelLength then [.labelTooLong owner label.length] else []

/-- The violations at each node, given the ids of the nodes before it. -/
def nodeViolations (before : List String) : List Node → List Violation
  | [] => []
  | node :: rest =>
    (if isSemanticId node.id then [] else [.invalidNodeId node.id]) ++
    (if before.contains node.id then [.duplicateNodeId node.id] else []) ++
    labelViolations node.id node.label ++
    nodeViolations (node.id :: before) rest

/-- The violations at one edge: endpoints that are no node, then an overlong label. -/
def edgeViolations (known : String → Bool) (edge : Edge) : List Violation :=
  ([edge.source, edge.target].filter (!known ·)).map (.unknownEndpoint edge.source edge.target) ++
  match edge.label? with
  | some label => labelViolations (edge.source ++ "->" ++ edge.target) label
  | none => []

/-- Every rule of the schema that the description breaks; `live` are the ids of nodes already on the canvas. -/
def violations (spec : Spec) (live : List String) : List Violation :=
  let known id := spec.nodes.any (·.id == id) || live.contains id
  (if spec.nodes.isEmpty then [.noNodes] else []) ++
  nodeViolations [] spec.nodes ++
  spec.groups.flatMap (fun group => labelViolations group.id group.label) ++
  spec.edges.flatMap (edgeViolations known)

end Spec

end Whiteboard
