import Whiteboard.Canvas.Snapshot
import Whiteboard.Diagram.Printer

/-!
# Comparing and merging

`Diff.between` compares a snapshot with a new diagram text, nodes by their ids and edges by their endpoints. `merged`
joins the two into one description: what is on both sides stays, relabelled where the text says so, what is only in the
text is added, and what is only on the canvas goes.
-/

namespace Whiteboard

namespace Diff

/-- A node whose label changes. -/
structure Update where
  id : String
  oldLabel : String
  newLabel : String
  deriving DecidableEq, Repr

end Diff

/-- What has to change for a canvas to show a new diagram. -/
structure Diff where
  nodesToAdd : List String
  nodesToRemove : List String
  edgesToAdd : List (String × String)
  edgesToRemove : List (String × String)
  nodesToUpdate : List Diff.Update
  deriving DecidableEq, Repr

namespace Diff

/-- Nothing has to change. -/
def isEmpty (d : Diff) : Bool :=
  d.nodesToAdd.isEmpty && d.nodesToRemove.isEmpty && d.edgesToAdd.isEmpty && d.edgesToRemove.isEmpty &&
  d.nodesToUpdate.isEmpty

/-- The new label of a node, if the document gives it one that differs. -/
def update? (doc : Document) (n : Snapshot.Node) : Option Update :=
  match (doc.node? n.id).bind (·.label?) with
  | some label => if label == n.label then none else some ⟨n.id, n.label, label⟩
  | none => none

/-- The changes from a snapshot to a document. -/
def ofDocument (s : Snapshot) (doc : Document) : Diff where
  nodesToAdd := doc.nodeIds.filter (!s.nodeIds.contains ·)
  nodesToRemove := s.nodeIds.filter (!doc.nodeIds.contains ·)
  edgesToAdd := (doc.pairs.filter (!s.pairs.contains ·)).eraseDups
  edgesToRemove := (s.pairs.filter (!doc.pairs.contains ·)).eraseDups
  nodesToUpdate := s.nodes.filterMap (update? doc)

/-- The changes from a snapshot to a text. -/
def between (s : Snapshot) (text : String) : Diff := ofDocument s (Document.parse text)

end Diff

namespace Merge

/-- A node of the canvas that is in the document too. -/
def keptNode? (doc : Document) (n : Snapshot.Node) : Option Spec.Node :=
  (doc.node? n.id).map fun incoming =>
    { id := n.id
      label := incoming.label?.getD n.label
      shape := if incoming.isDeclared then incoming.shape else n.shape
      group? := incoming.group?.or n.group? }

/-- A node of the document that is not on the canvas. Without a label it shows its id. -/
def addedNode (n : Document.Node) : Spec.Node :=
  { id := n.id, label := n.label?.getD n.id, shape := n.shape, group? := n.group? }

/-- The nodes of both sides. -/
def nodes (s : Snapshot) (doc : Document) : List Spec.Node :=
  s.nodes.filterMap (keptNode? doc) ++ (doc.nodes.filter fun n => !s.nodeIds.contains n.id).map addedNode

/-- The edges of both sides. -/
def edges (s : Snapshot) (doc : Document) : List Spec.Edge :=
  ((s.edges.filter fun e => doc.pairs.contains (e.source, e.target)).map fun e =>
    ⟨e.source, e.target, e.label?, e.dashed⟩) ++
  (doc.edges.filter fun e => !s.pairs.contains (e.source, e.target)).map fun e =>
    ⟨e.source, e.target, e.label?, e.dashed⟩

/-- The groups of the document, then those of the canvas that still have a member. -/
def groups (s : Snapshot) (doc : Document) : List Spec.Group :=
  doc.groups.map (fun g => ⟨g.id, g.label⟩) ++
  (s.groups.filter fun g =>
    !doc.groups.any (·.id == g.id) && (nodes s doc).any (·.group? == some g.id)).map fun g => ⟨g.id, g.label⟩

end Merge

/-- A snapshot and a document as one description. The direction of the document wins. -/
def merged (s : Snapshot) (doc : Document) : Spec where
  direction := doc.direction?.getD s.direction
  nodes := Merge.nodes s doc
  groups := Merge.groups s doc
  edges := Merge.edges s doc

/-- A snapshot and a diagram text as one diagram text. -/
def mergedText (s : Snapshot) (text : String) : String := (merged s (Document.parse text)).render

end Whiteboard
