import Whiteboard.Canvas.Merge
import Whiteboard.Proofs.Canvas.Projection
import Whiteboard.Proofs.Validation.Acceptance

/-!
# What an accepted edit leaves as it is

Main statement: where an accepted text is merged into the canvas that it was checked against, every node that is on both sides
keeps the label, the shape and the group that it has on the canvas (`Pipeline.retains_of_validate`).

A text says something of a node only where it declares it, and a text that declares a node of the canvas is not accepted. So
the order of precedence between the two sides of a merge does not matter to accepted texts.
-/

namespace Whiteboard

/-- A node of the canvas as a description has it. -/
def Snapshot.Node.toSpec (n : Snapshot.Node) : Spec.Node := ⟨n.id, n.label, n.shape, n.group?⟩

/-- The document declares no node that is on the canvas. -/
def Document.LeavesAlone (doc : Document) (s : Snapshot) : Prop :=
  ∀ n ∈ doc.nodes, n.id ∈ s.nodeIds → n.isDeclared = false

namespace Document.LeavesAlone

variable {doc : Document} {s : Snapshot} {n : Snapshot.Node}

/-- The document says nothing of a node of the canvas. -/
theorem details?_eq_none (h : doc.LeavesAlone s) (hn : n ∈ s.nodes) {m : Document.Node} (hm : doc.node? n.id = some m) :
    m.details? = none := by
  have hid := (Document.mem_of_node? hm).2
  have hundeclared := h m (Document.mem_of_node? hm).1 (hid ▸ List.mem_map.2 ⟨n, hn, rfl⟩)
  rwa [Document.Node.isDeclared, Option.isSome_eq_false_iff, Option.isNone_iff_eq_none] at hundeclared

/-- A node that is left alone needs no update. -/
theorem update?_eq_none (h : doc.LeavesAlone s) (hn : n ∈ s.nodes) : Diff.update? doc n = none := by
  rw [Diff.update?]
  cases hm : doc.node? n.id with
  | none => rfl
  | some m => rw [Option.bind_some, Document.Node.label?, h.details?_eq_none hn hm]; rfl

/-- A node of the canvas that is in the document too stays as it is. -/
theorem keptNode?_eq (h : doc.LeavesAlone s) (hn : n ∈ s.nodes) :
    Merge.keptNode? doc n = if doc.nodeIds.contains n.id then some n.toSpec else none := by
  cases hm : doc.node? n.id with
  | none =>
    rw [Merge.keptNode?, hm, ← doc.node?_isSome, hm]
    rfl
  | some m =>
    rw [Merge.keptNode?, hm, ← doc.node?_isSome, hm]
    simp [Document.Node.label?, Document.Node.isDeclared, Document.Node.group?, h.details?_eq_none hn hm,
      Snapshot.Node.toSpec]

/-- The nodes of a merge that are on the canvas are those of the canvas that are in the document, as they are and in their
order. -/
theorem filter_nodes_merged (h : doc.LeavesAlone s) :
    (merged s doc).nodes.filter (fun n => s.nodeIds.contains n.id) =
      (s.nodes.filter fun n => doc.nodeIds.contains n.id).map (·.toSpec) := by
  have hkept : s.nodes.filterMap (Merge.keptNode? doc) =
      (s.nodes.filter fun n => doc.nodeIds.contains n.id).map (·.toSpec) := by
    rw [← List.filterMap_eq_map, List.filterMap_filter]
    exact List.filterMap_congr fun n hn => h.keptNode?_eq hn
  have hstay : ((s.nodes.filter fun n => doc.nodeIds.contains n.id).map (·.toSpec)).filter
      (fun n => s.nodeIds.contains n.id) = (s.nodes.filter fun n => doc.nodeIds.contains n.id).map (·.toSpec) := by
    rw [List.filter_eq_self]
    intro m hm
    obtain ⟨n, hn, rfl⟩ := List.mem_map.1 hm
    exact List.contains_iff_mem.2 (List.mem_map.2 ⟨n, List.mem_of_mem_filter hn, rfl⟩)
  have hadded : ((doc.nodes.filter fun n => !s.nodeIds.contains n.id).map Merge.addedNode).filter
      (fun n => s.nodeIds.contains n.id) = [] := by
    rw [List.filter_eq_nil_iff]
    intro m hm
    obtain ⟨n, hn, rfl⟩ := List.mem_map.1 hm
    simpa [Merge.addedNode] using (List.mem_filter.1 hn).2
  rw [merged, Merge.nodes, List.filter_append, hkept, hstay, hadded, List.append_nil]

end Document.LeavesAlone

namespace Pipeline

/-- An accepted edit leaves the nodes of the canvas as they are. If a text passes the checks for a canvas, it relabels no node
of it, and of the nodes of the description that is rendered by a merge those that are on the canvas are exactly the nodes of
the canvas that are in the text, with the label, the shape and the group that they have on the canvas. -/
theorem retains_of_validate (options : Lint.Options) (scene : Scene) (diagramText? : Option String) (text : String)
    (warnings : List Lint.Violation)
    (h : (forMode options .incremental (LiveIds.ofScene scene)).validate text = .ok warnings) :
    let s := Snapshot.ofCanvas scene diagramText?
    let doc := Document.parse text
    (Diff.between s text).nodesToUpdate = [] ∧ mergedText s text = (merged s doc).render ∧
    (merged s doc).nodes.filter (fun n => s.nodeIds.contains n.id) =
      (s.nodes.filter fun n => doc.nodeIds.contains n.id).map fun n => ⟨n.id, n.label, n.shape, n.group?⟩ := by
  intro s doc
  have hids := passes_validatingIds_iff.1 (validate_eq_ok_iff.1 h).1.2.1
  have halone : doc.LeavesAlone s := fun n hn hid =>
    (Ids.of_isOk hids n hn).undeclared rfl (LiveIds.mem_nodeIds_ofScene hid)
  refine ⟨?_, rfl, halone.filter_nodes_merged⟩
  exact List.filterMap_eq_nil_iff.2 fun n hn => halone.update?_eq_none hn

/-- A canvas with a round node in a container and a square one outside of it. -/
def pairedScene : Scene where
  elements := [
    ⟨"k", .rectangle, { x := 0, y := 0, width := 400, height := 300 }, [], []⟩,
    ⟨"a", .ellipse, { x := 40, y := 40, width := 160, height := 80 }, [], []⟩,
    ⟨"text_a", .text "Ann" (some "a") 16, { x := 40, y := 40, width := 160, height := 80 }, [], []⟩,
    ⟨"z", .diamond, { x := 640, y := 40, width := 160, height := 80 }, [], []⟩]

/-- A text that refers to both nodes, to one of them within a group, before and after it declares nodes of its own. -/
def pairedText : String :=
  "flowchart LR\n    z --> b(\"Bob\")\n    subgraph team[Team]\n        c[\"Cem\"] --> a\n    end\n    a --> z\n"

/-- Both nodes are retained, with the label and the group of the one and without any of the other. -/
theorem retains_of_validate_paired :
    (forMode {} .incremental (LiveIds.ofScene pairedScene)).validate pairedText = .ok [] ∧
    (Diff.between (Snapshot.ofCanvas pairedScene none) pairedText).nodesToUpdate = [] ∧
    (merged (Snapshot.ofCanvas pairedScene none) (Document.parse pairedText)).nodes.filter
        (fun n => (Snapshot.ofCanvas pairedScene none).nodeIds.contains n.id) =
      [⟨"a", "Ann", .circle, some "k"⟩, ⟨"z", "", .decision, none⟩] := by
  have hlint : Lint.violations {} pairedText = [] := by
    simp only [Lint.violations, Lint.statementsViolations, Lint.statementViolations, Lint.labelFaults,
      String.contains_char_eq]
    decide +kernel
  have h : (forMode {} .incremental (LiveIds.ofScene pairedScene)).validate pairedText = .ok [] :=
    validate_eq_ok_nil hlint (by decide +kernel) (by decide +kernel)
  obtain ⟨hupdates, -, hnodes⟩ := retains_of_validate {} pairedScene none pairedText [] h
  refine ⟨h, hupdates, hnodes.trans ?_⟩
  decide +kernel

end Pipeline

end Whiteboard
