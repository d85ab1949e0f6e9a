import Whiteboard.Canvas.Merge
import Whiteboard.Proofs.Diagram.WellFormed
import Whiteboard.Proofs.Listing

/-!
# What has to change on a canvas

Main statement: the changes from a snapshot to a text are those between two sets of ids, two sets of pairs and the labels of
the nodes on both sides, and none of them is left out or made twice (`Diff.between_isExact`).

A document has every id once, so its nodes can be looked up by their ids (`Document.any_eq_node?`); a snapshot may repeat an
id, and then each of its nodes is compared and taken out by itself.
-/

namespace Whiteboard

/-- Among nodes with distinct ids, what holds of some node with an id holds of the one that is found by it. -/
theorem Document.any_eq_node? {doc : Document} (h : doc.nodeIds.Nodup) (id : String) (p : Document.Node → Bool) :
    (doc.nodes.any fun m => m.id == id && p m) = (doc.node? id).any p := by
  rw [Bool.eq_iff_iff, List.any_eq_true, Option.any_eq_true]
  constructor
  · rintro ⟨m, hm, hp⟩
    rw [Bool.and_eq_true, beq_iff_eq] at hp
    obtain ⟨rfl, hp⟩ := hp
    exact ⟨m, node?_of_mem h hm, hp⟩
  · rintro ⟨m, hfound, hp⟩
    obtain ⟨hm, rfl⟩ := mem_of_node? hfound
    exact ⟨m, hm, by rw [beq_self_eq_true, hp]; rfl⟩

/-- The document gives a node of the canvas a label that is not the one it has. -/
def Document.relabels (doc : Document) (n : Snapshot.Node) : Bool :=
  doc.nodes.any fun m => m.id == n.id && m.label?.any (· != n.label)

namespace Diff

/-- The changes from a snapshot to a document, no more and no less. -/
structure IsExact (d : Diff) (s : Snapshot) (doc : Document) : Prop where
  /-- The ids to add are those of the document that the canvas lacks, each once, in the order of the document. -/
  nodesToAdd : IsSurplus d.nodesToAdd doc.nodeIds s.nodeIds
  /-- The ids to remove are those of the canvas that the document lacks, in the order of the canvas and as often. -/
  nodesToRemove : d.nodesToRemove.Sublist s.nodeIds
  count_nodesToRemove : ∀ id, d.nodesToRemove.count id = if id ∈ doc.nodeIds then 0 else s.nodeIds.count id
  patch_nodes : (s.nodeIds.toFinset \ d.nodesToRemove.toFinset) ∪ d.nodesToAdd.toFinset = doc.nodeIds.toFinset
  /-- Pairs are compared likewise, however many edges join them. -/
  edgesToAdd : IsSurplus d.edgesToAdd doc.pairs s.pairs
  edgesToRemove : IsSurplus d.edgesToRemove s.pairs doc.pairs
  patch_edges : (s.pairs.toFinset \ d.edgesToRemove.toFinset) ∪ d.edgesToAdd.toFinset = doc.pairs.toFinset
  /-- The nodes to update are those of the canvas to which the document gives another label, in the order of the canvas. -/
  nodesToUpdate : (d.nodesToUpdate.map fun u => (u.id, u.oldLabel)) =
    (s.nodes.filter doc.relabels).map fun n => (n.id, n.label)
  newLabel : ∀ u ∈ d.nodesToUpdate, ∃ m ∈ doc.nodes, m.id = u.id ∧ m.label? = some u.newLabel
  /-- There are no changes exactly if both sides have the same ids and the same pairs and no label differs that the document
  gives. -/
  isEmpty_iff : d.isEmpty = true ↔ s.nodeIds.toFinset = doc.nodeIds.toFinset ∧ s.pairs.toFinset = doc.pairs.toFinset ∧
    ∀ n ∈ s.nodes, ∀ m ∈ doc.nodes, m.id = n.id → ∀ label ∈ m.label?, label = n.label

variable {s : Snapshot} {doc : Document}

/-! ## Updates -/

/-- A node is updated if the document gives it another label. -/
theorem isSome_update? (h : doc.nodeIds.Nodup) (n : Snapshot.Node) : (update? doc n).isSome = doc.relabels n := by
  rw [Document.relabels, Document.any_eq_node? h, update?]
  cases doc.node? n.id with
  | none => rfl
  | some m =>
    rw [Option.bind_some, Option.any_some]
    cases m.label? with
    | none => rfl
    | some label =>
      by_cases heq : label = n.label
      · simp [heq]
      · simp [heq]

/-- What an update says: the node, the label it has and the label that the document gives it. -/
theorem of_update?_eq_some {n : Snapshot.Node} {u : Update} (h : update? doc n = some u) :
    (u.id = n.id ∧ u.oldLabel = n.label) ∧ ∃ m ∈ doc.nodes, m.id = u.id ∧ m.label? = some u.newLabel := by
  unfold update? at h
  split at h
  · rename_i label hlabel
    split at h
    · cases h
    · cases h
      obtain ⟨m, hfound, hm⟩ := Option.bind_eq_some_iff.1 hlabel
      obtain ⟨hmem, hid⟩ := Document.mem_of_node? hfound
      exact ⟨⟨rfl, rfl⟩, m, hmem, hid, hm⟩
  · cases h

/-- The updated nodes, in order. -/
theorem map_updates (h : doc.nodeIds.Nodup) (ns : List Snapshot.Node) :
    ((ns.filterMap (update? doc)).map fun u => (u.id, u.oldLabel)) =
      (ns.filter doc.relabels).map fun n => (n.id, n.label) := by
  induction ns with
  | nil => rfl
  | cons n ns ih =>
    have hsome := isSome_update? h n
    cases hu : update? doc n with
    | none =>
      rw [hu, Option.isSome_none] at hsome
      rw [List.filterMap_cons_none hu, List.filter_cons_of_neg (by simp [← hsome]), ih]
    | some u =>
      rw [hu, Option.isSome_some] at hsome
      obtain ⟨⟨hid, hlabel⟩, -⟩ := of_update?_eq_some hu
      rw [List.filterMap_cons_some hu, List.filter_cons_of_pos hsome.symm, List.map_cons, List.map_cons, ih, hid, hlabel]

/-- Nothing is updated exactly if every label that the document gives is the one on the canvas. -/
theorem updates_eq_nil_iff (h : doc.nodeIds.Nodup) (ns : List Snapshot.Node) :
    ns.filterMap (update? doc) = [] ↔
      ∀ n ∈ ns, ∀ m ∈ doc.nodes, m.id = n.id → ∀ label ∈ m.label?, label = n.label := by
  have hnone : ∀ n, update? doc n = none ↔ ∀ m ∈ doc.nodes, m.id = n.id → ∀ label ∈ m.label?, label = n.label := by
    intro n
    rw [← Option.not_isSome_iff_eq_none, isSome_update? h, Document.relabels, Bool.not_eq_true, List.any_eq_false]
    simp [Option.any_eq_false]
  rw [List.filterMap_eq_nil_iff]
  simp only [hnone]

/-! ## Main statement -/

/-- The changes to a document with distinct ids are exact. -/
theorem ofDocument_isExact (s : Snapshot) (h : doc.nodeIds.Nodup) : (ofDocument s doc).IsExact s doc := by
  have hadd : IsSurplus (ofDocument s doc).nodesToAdd doc.nodeIds s.nodeIds := isSurplus_filter h _
  have hremove : ∀ id, id ∈ (ofDocument s doc).nodesToRemove ↔ id ∈ s.nodeIds ∧ id ∉ doc.nodeIds := by
    intro id
    simp [ofDocument]
  have hedgesAdd : IsSurplus (ofDocument s doc).edgesToAdd doc.pairs s.pairs := isSurplus_eraseDups _ _
  have hedgesRemove : IsSurplus (ofDocument s doc).edgesToRemove s.pairs doc.pairs := isSurplus_eraseDups _ _
  constructor
  case nodesToAdd => exact hadd
  case nodesToRemove => exact List.filter_sublist
  case count_nodesToRemove =>
    intro id
    rw [ofDocument]
    split
    · rename_i hid
      rw [List.count_eq_zero, List.mem_filter]
      simp [hid]
    · rename_i hid
      exact List.count_filter (by simpa using hid)
  case patch_nodes => exact toFinset_patch hadd.mem_iff hremove
  case edgesToAdd => exact hedgesAdd
  case edgesToRemove => exact hedgesRemove
  case patch_edges => exact toFinset_patch hedgesAdd.mem_iff hedgesRemove.mem_iff
  case nodesToUpdate => exact map_updates h s.nodes
  case newLabel =>
    intro u hu
    obtain ⟨n, -, hupdate⟩ := List.mem_filterMap.1 hu
    exact (of_update?_eq_some hupdate).2
  case isEmpty_iff =>
    rw [← eq_nil_iff_toFinset_eq hadd.mem_iff hremove,
      ← eq_nil_iff_toFinset_eq hedgesAdd.mem_iff hedgesRemove.mem_iff, ← updates_eq_nil_iff h]
    simp only [isEmpty, Bool.and_eq_true, List.isEmpty_iff, and_assoc]
    rfl

/-- Whatever the canvas and the text are, the changes from the one to the other are exact: ids and pairs are added, and taken
out, that only one side has, each once and in order (a node of the canvas is taken out as often as its id is there), which makes
one set the other; the nodes to update are those of the canvas to which the text gives another label; and there are no changes
exactly if ids, pairs and given labels agree. -/
theorem between_isExact (s : Snapshot) (text : String) : (between s text).IsExact s (Document.parse text) :=
  ofDocument_isExact s (Document.wellFormed_parse_any text).nodes_nodup

end Diff

end Whiteboard
