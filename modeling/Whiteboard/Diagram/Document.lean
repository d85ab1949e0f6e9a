import Whiteboard.Diagram.Statement

/-!
# Documents

`Document.parse` takes from a text every node, edge and group that it can recognize and passes over the rest. A node
that no statement declares with a bracket pair is known by reference only.
-/

namespace Whiteboard

open Text

namespace Document

/-- What the first declaration of a node says of it. -/
structure Details where
  label : String
  shape : Shape
  /-- The innermost group that is open at the declaration. -/
  group? : Option String
  deriving DecidableEq, Repr

/-- A node; without details it is known by reference only. -/
structure Node where
  id : String
  /-- The number of the line that refers to it first. -/
  line : Nat
  details? : Option Details
  deriving DecidableEq, Repr

/-- An edge between two nodes. -/
structure Edge where
  source : String
  target : String
  label? : Option String
  dashed : Bool
  line : Nat
  deriving DecidableEq, Repr

/-- A group and the line that opens it. -/
structure Group where
  id : String
  label : String
  line : Nat
  deriving DecidableEq, Repr

/-- A reference to a node with a bracket pair. -/
structure Declaration where
  id : String
  label : String
  shape : Shape
  line : Nat
  deriving DecidableEq, Repr

namespace Node

/-- Some statement declares the node. -/
def isDeclared (node : Node) : Bool := node.details?.isSome

/-- The label of a declared node. -/
def label? (node : Node) : Option String := node.details?.map (·.label)

/-- The shape of the node; without a declaration it is a rectangle. -/
def shape (node : Node) : Shape := (node.details?.map (·.shape)).getD .rectangle

/-- The group of the node; without a declaration it is in none. -/
def group? (node : Node) : Option String := node.details?.bind (·.group?)

end Node

end Document

/-- The structure of a diagram text. -/
structure Document where
  /-- The direction of the first header line, if it names one. -/
  direction? : Option Direction := none
  /-- The nodes, each once, in the order of their first references. -/
  nodes : List Document.Node := []
  edges : List Document.Edge := []
  /-- The groups, one for each line that opens a group. -/
  groups : List Document.Group := []
  /-- Every declaration, those of one node included. -/
  declarations : List Document.Declaration := []
  deriving DecidableEq, Repr

namespace Document

/-- The node with the given id. -/
def node? (doc : Document) (id : String) : Option Node := doc.nodes.find? (·.id == id)

/-- The ids of the nodes, in order. -/
def nodeIds (doc : Document) : List String := doc.nodes.map (·.id)

/-- The endpoints of the edges, in order. -/
def pairs (doc : Document) : List (String × String) := doc.edges.map fun e => (e.source, e.target)

/-- A text without the double quotes at its two ends. -/
def dropQuotes (s : List Char) : List Char := dropEndWhile (· == '"') (s.dropWhile (· == '"'))

/-- The id and the label of a group opened with a title such as `id["label"]`: an id, blanks, and a label in square
brackets up to the end of the line. Any other title is both the id and the label. -/
def groupOfTitle (title : List Char) : String × String :=
  let id := title.takeWhile isIdChar
  match trimStart (title.drop id.length) with
  | '[' :: rest =>
    if !id.isEmpty && rest.getLast? == some ']' && !rest.contains '\n' then
      (String.ofList id, String.ofList (Label.decodeChars (dropQuotes (trim rest.dropLast))))
    else plain
  | _ => plain
where
  plain : String × String :=
    let label := String.ofList (Label.decodeChars (dropQuotes title))
    (label, label)

/-- The declaration that a reference makes, if it has a bracket pair. -/
def declarationOf? (line : Nat) (ref : NodeRef) : Option Declaration :=
  ref.span?.map fun span => ⟨ref.id, Label.decode span.label, span.shape, line⟩

/-- What a reference says of its node, if it declares it. -/
def detailsOf? (group? : Option String) (ref : NodeRef) : Option Details :=
  ref.span?.map fun span => ⟨Label.decode span.label, span.shape, group?⟩

/-- The nodes after one more reference: a new node comes last, and a node that is known keeps the details it has. -/
def noteRef (group? : Option String) (line : Nat) (nodes : List Node) (ref : NodeRef) : List Node :=
  if nodes.any (·.id == ref.id) then
    nodes.map fun node =>
      if node.id == ref.id then { node with details? := node.details?.or (detailsOf? group? ref) } else node
  else nodes ++ [⟨ref.id, line, detailsOf? group? ref⟩]

/-- The edges of one link: every node on its left with every node on its right. -/
def edgesOfHop (line : Nat) (hop : NodeGroup × Link × NodeGroup) : List Edge :=
  let (left, link, right) := hop
  left.refs.flatMap fun source => right.refs.map fun target =>
    ⟨source.id, target.id, link.label?.map Label.decode, link.arrow == .dashed, line⟩

/-- The document after one more statement, with the innermost open group at it. -/
def addStatement (group? : Option String) (line : Nat) (doc : Document) (statement : Statement) : Document :=
  { doc with
    nodes := statement.refs.foldl (noteRef group? line) doc.nodes
    edges := doc.edges ++ statement.hops.flatMap (edgesOfHop line)
    declarations := doc.declarations ++ statement.refs.filterMap (declarationOf? line) }

/-- A document that is being read. -/
structure Reading where
  document : Document := {}
  /-- The ids of the open groups, the innermost one first. -/
  openGroups : List String := []
  /-- A header or a statement has been read, so no header line counts from here on. -/
  started : Bool := false
  deriving DecidableEq, Repr

/-- Reading one more line. -/
def Reading.step (r : Reading) (line : NumberedLine) : Reading :=
  match Line.classify line.text with
  | .header _ direction? =>
    if r.started then r
    else { r with started := true, document.direction? := direction?.bind Direction.ofToken? }
  | .groupOpen title =>
    let (id, label) := groupOfTitle title
    { r with openGroups := id :: r.openGroups, document.groups := r.document.groups ++ [⟨id, label, line.number⟩] }
  | .groupClose => { r with openGroups := r.openGroups.tail }
  | .statement text =>
    match Statement.parse text with
    | .error _ => { r with started := true }
    | .ok statement =>
      { r with
        started := true
        document := r.document.addStatement r.openGroups.head? line.number statement }
  | .blank | .comment | .fence | .direction _ | .directive _ => r

/-- The structure of a text. -/
def ofLines (lines : List NumberedLine) : Document := (lines.foldl Reading.step {}).document

/-- The structure of a text. -/
def parse (text : String) : Document := ofLines (Body.ofText text.toList).lines

end Document

end Whiteboard
