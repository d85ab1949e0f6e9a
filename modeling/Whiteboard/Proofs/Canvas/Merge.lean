import Whiteboard.Canvas.Merge
import Whiteboard.Proofs.Diagram.RoundTrip
import Whiteboard.Proofs.Diagram.WellFormed

/-!
# Merging is correct

Main statement: reading the text of a merge gives the nodes and the pairs of the incoming text, and for every node, edge
and group what the two sides say of it together (`Document.parse_mergedText`).

A merge is a description, so what its text reads as is known once the description is legible (`isLegible_merged`). What
is left is to compare the description with the two sides: the ids of its nodes are those of the incoming document
(`Merge.map_id_nodes_perm`), its edges join the same pairs (`Merge.mem_pairs_edges`), and labels that were read once are
read as they are (`IsLabel.decode_escape`, `IsLabel.decode_writtenLabel?`).
-/

namespace Whiteboard

open Text

/-! ## Labels that were read once -/

/-- A label that was read, written between quotes, is read again. -/
theorem IsLabel.decode_escape {label : String} (h : IsLabel (· ≠ '\r') label) :
    Label.decode (Label.escape label) = label :=
  Label.decode_escape h.decoded fun hr => h.chars _ hr rfl

/-- A label that was read, written between pipes, is read again, unless there is nothing to write. -/
theorem IsLabel.decode_writtenLabel? {label? : Option String}
    (h : ∀ l ∈ label?, IsLabel (fun c => c ≠ '\r' ∧ c ≠ '|') l) :
    (writtenLabel? label?).map Label.decode = label?.filter (· != "") := by
  cases label? with
  | none => rfl
  | some label =>
    have hl := h label rfl
    have hreturn : '\r' ∉ label.toList := fun hr => (hl.chars _ hr).1 rfl
    have hdecode : Label.decode (Label.sanitize label) = label := by
      rw [Label.decode, Label.decodeChars_sanitize hl.decoded fun hp => (hl.chars _ hp).2 rfl,
        Label.unifyBreaks_eq_self hreturn, String.ofList_toList]
    have hempty : Label.sanitize label = "" ↔ label = "" := by
      constructor
      · intro hnil
        rw [← hdecode, hnil]
        decide +kernel
      · rintro rfl
        decide +kernel
    rw [writtenLabel?, Option.map_some]
    by_cases hnil : label = ""
    · rw [hempty.2 hnil, hnil]
      rfl
    · simp [Option.filter, hnil, hempty, hdecode]

/-- A word is a label that was read. -/
theorem IsWord.isLabel {id : String} (h : IsWord id) : IsLabel (· ≠ '\r') id :=
  ⟨h.isDecoded, fun _ hc => ne_of_isIdChar (h.2 _ hc) (by decide)⟩

/-! ## Looking up nodes -/

/-- Leaving out the line numbers keeps the nodes and their details. -/
theorem Document.exists_of_mem_unnumbered {doc : Document} {m : Document.Node} (h : m ∈ doc.unnumbered.nodes) :
    ∃ k ∈ doc.nodes, k.id = m.id ∧ k.details? = m.details? := by
  obtain ⟨k, hk, rfl⟩ := List.mem_map.1 h
  exact ⟨k, hk, rfl, rfl⟩

namespace Spec

/-- A node of a legible description is found in its text, as it was declared. -/
theorem IsLegible.node?_parse {spec : Spec} (h : spec.IsLegible) {n : Node} (hn : n ∈ spec.nodes) :
    ∃ k, (Document.parse spec.render).node? n.id = some k ∧ k.details? = some (n.details (spec.writtenGroup? n)) := by
  have hplaced : n ∈ spec.placedNodes := (spec.placedNodes_perm h.groups_nodup).mem_iff.2 hn
  have hread := congrArg Document.nodes h.unnumbered_parse
  have hmem : n.declared (spec.writtenGroup? n) ∈ (Document.parse spec.render).unnumbered.nodes := by
    rw [hread]
    exact List.mem_append_left _ (List.mem_map.2 ⟨n, hplaced, rfl⟩)
  obtain ⟨k, hk, hid, hdetails⟩ := Document.exists_of_mem_unnumbered hmem
  refine ⟨k, ?_, hdetails⟩
  change k.id = n.id at hid
  rw [← hid]
  exact Document.node?_of_mem (Document.wellFormed_parse_any _).nodes_nodup hk

end Spec

/-! ## The description of a merge -/

/-- A snapshot whose nodes and groups have names of their own, those of the groups being words. -/
structure Snapshot.IsNamed (s : Snapshot) : Prop where
  nodes_nodup : s.nodeIds.Nodup
  groups_nodup : (s.groups.map (·.id)).Nodup
  group_word : ∀ g ∈ s.groups, IsWord g.id

/-- A document that can be written again: its groups have words of their own as ids, and no edge starts at a word that
makes its line something else. -/
structure Document.IsWritable (doc : Document) : Prop where
  groups_nodup : doc.groupIds.Nodup
  group_word : ∀ g ∈ doc.groups, IsWord g.id
  edge_source : ∀ e ∈ doc.edges, e.source ∉ lineKeywords

namespace Merge

variable {s : Snapshot} {doc : Document}

/-- The ids of the merged nodes: those of the snapshot that are kept, and those that are new. -/
theorem map_id_nodes (s : Snapshot) (doc : Document) :
    (nodes s doc).map (·.id) = s.nodeIds.filter (doc.nodeIds.contains ·) ++ doc.nodeIds.filter (!s.nodeIds.contains ·) := by
  have hkept : (s.nodes.filterMap (keptNode? doc)).map (·.id) = s.nodeIds.filter (doc.nodeIds.contains ·) := by
    rw [Snapshot.nodeIds]
    induction s.nodes with
    | nil => rfl
    | cons n ns ih =>
      have hsome := doc.node?_isSome n.id
      cases hn : doc.node? n.id with
      | none =>
        rw [hn] at hsome
        simp only [List.map_cons, List.filterMap_cons, keptNode?, hn, Option.map_none, List.filter_cons, ← hsome]
        exact ih
      | some i =>
        rw [hn] at hsome
        simp only [List.map_cons, List.filterMap_cons, keptNode?, hn, Option.map_some, List.filter_cons, ← hsome]
        exact congrArg (n.id :: ·) ih
  rw [nodes, List.map_append, hkept, List.map_map, Document.nodeIds, List.filter_map]
  rfl

/-- A merge has a node with an id if the document has one. -/
theorem mem_map_id_nodes (id : String) : id ∈ (nodes s doc).map (·.id) ↔ id ∈ doc.nodeIds := by
  rw [map_id_nodes]
  simp only [List.mem_append, List.mem_filter, Bool.not_eq_true', List.contains_eq_mem,
    decide_eq_true_eq, decide_eq_false_iff_not]
  by_cases hid : id ∈ s.nodeIds <;> simp [hid]

/-- The nodes of a merge are those of the document. -/
theorem map_id_nodes_perm (hs : s.nodeIds.Nodup) (hdoc : doc.nodeIds.Nodup) :
    ((nodes s doc).map (·.id)).Perm doc.nodeIds := by
  refine (List.perm_ext_iff_of_nodup ?_ hdoc).2 mem_map_id_nodes
  rw [map_id_nodes]
  refine (hs.filter _).append (hdoc.filter _) ?_
  intro id h1 h2
  simp_all

/-- Every merged node is one of the document. -/
theorem mem_nodeIds_of_mem_nodes {n : Spec.Node} (hn : n ∈ nodes s doc) : n.id ∈ doc.nodeIds :=
  (mem_map_id_nodes n.id).1 (List.mem_map.2 ⟨n, hn, rfl⟩)

/-- The edges of a merge join the pairs of the document. -/
theorem mem_pairs_edges (pair : String × String) :
    pair ∈ (edges s doc).map (fun e => (e.source, e.target)) ↔ pair ∈ doc.pairs := by
  rw [edges, List.map_append, List.map_map, List.map_map, List.mem_append]
  constructor
  · rintro (h | h)
    · obtain ⟨e, he, rfl⟩ := List.mem_map.1 h
      simpa using (List.mem_filter.1 he).2
    · obtain ⟨e, he, rfl⟩ := List.mem_map.1 h
      exact List.mem_map.2 ⟨e, List.mem_of_mem_filter he, rfl⟩
  · intro h
    by_cases hs : pair ∈ s.pairs
    · obtain ⟨e, he, rfl⟩ := List.mem_map.1 hs
      exact Or.inl (List.mem_map.2 ⟨e, List.mem_filter.2 ⟨he, by simpa using h⟩, rfl⟩)
    · obtain ⟨e, he, rfl⟩ := List.mem_map.1 h
      exact Or.inr (List.mem_map.2 ⟨e, List.mem_filter.2 ⟨he, by simpa using hs⟩, rfl⟩)

/-- An edge of a merge joins the ends of an edge of the document. -/
theorem exists_edge_of_mem_edges {e : Spec.Edge} (he : e ∈ edges s doc) :
    ∃ e' ∈ doc.edges, e'.source = e.source ∧ e'.target = e.target := by
  have hpair := (mem_pairs_edges (e.source, e.target)).1 (List.mem_map.2 ⟨e, he, rfl⟩)
  obtain ⟨e', he', heq⟩ := List.mem_map.1 hpair
  exact ⟨e', he', congrArg Prod.fst heq, congrArg Prod.snd heq⟩

/-- A node of the document that the canvas has too. -/
theorem keptNode_mem_nodes {n : Snapshot.Node} (hn : n ∈ s.nodes) {i : Document.Node} (hi : doc.node? n.id = some i) :
    { id := n.id, label := i.label?.getD n.label, shape := if i.isDeclared then i.shape else n.shape,
      group? := i.group?.or n.group? : Spec.Node } ∈ nodes s doc :=
  List.mem_append_left _ (List.mem_filterMap.2 ⟨n, hn, by rw [keptNode?, hi]; rfl⟩)

/-- A node that is new to the snapshot is added. -/
theorem addedNode_mem_nodes {i : Document.Node} (hi : i ∈ doc.nodes) (hnew : i.id ∉ s.nodeIds) :
    addedNode i ∈ nodes s doc :=
  List.mem_append_right _ (List.mem_map.2 ⟨i, List.mem_filter.2 ⟨hi, by simpa using hnew⟩, rfl⟩)

/-- A group of the canvas keeps a member: a node that stays, that stands in it and that the document puts in no group. -/
def keepsMember (s : Snapshot) (doc : Document) (group : String) : Bool :=
  s.nodes.any fun n => n.group? == some group && (doc.node? n.id).any (·.group?.isNone)

/-- For a group that the document does not have, members of the merge are nodes that it keeps. -/
theorem any_group_nodes (hdoc : ∀ n ∈ doc.nodes, ∀ g ∈ n.group?, g ∈ doc.groupIds) {group : String}
    (hgroup : group ∉ doc.groupIds) : (nodes s doc).any (·.group? == some group) = keepsMember s doc group := by
  have hnot : ∀ i ∈ doc.nodes, i.group? ≠ some group := fun i hi hg => hgroup (hdoc i hi group hg)
  rw [Bool.eq_iff_iff, keepsMember, List.any_eq_true, List.any_eq_true]
  constructor
  · rintro ⟨m, hm, hg⟩
    simp only [beq_iff_eq] at hg
    rcases List.mem_append.1 hm with hm | hm
    · obtain ⟨n, hn, hkept⟩ := List.mem_filterMap.1 hm
      obtain ⟨i, hi, rfl⟩ := Option.map_eq_some_iff.1 hkept
      refine ⟨n, hn, ?_⟩
      cases hig : i.group? with
      | none => simpa [hi, hig] using hg
      | some g =>
        have hsome : i.group? = some group := by simpa [hig] using hg
        exact absurd hsome (hnot i (Document.mem_of_node? hi).1)
    · obtain ⟨i, hi, rfl⟩ := List.mem_map.1 hm
      exact absurd hg (hnot i (List.mem_of_mem_filter hi))
  · rintro ⟨n, hn, h⟩
    simp only [Bool.and_eq_true, beq_iff_eq, Option.any_eq_true, Option.isNone_iff_eq_none] at h
    obtain ⟨hg, i, hi, hig⟩ := h
    exact ⟨_, keptNode_mem_nodes hn hi, by simp [hig, hg]⟩

/-- The groups of a merge: those of the document, then those of the canvas that keep a member. -/
theorem groups_eq (hdoc : ∀ n ∈ doc.nodes, ∀ g ∈ n.group?, g ∈ doc.groupIds) :
    groups s doc = doc.groups.map (fun g => ⟨g.id, g.label⟩) ++
      (s.groups.filter fun g => !doc.groupIds.contains g.id && keepsMember s doc g.id).map fun g => ⟨g.id, g.label⟩ := by
  rw [groups]
  congr 2
  apply List.filter_congr
  intro g _
  have hany : doc.groups.any (·.id == g.id) = doc.groupIds.contains g.id := by
    rw [Bool.eq_iff_iff, List.any_eq_true, List.contains_iff_mem, Document.groupIds, List.mem_map]
    simp
  rw [hany]
  by_cases hg : g.id ∈ doc.groupIds
  · simp [hg]
  · rw [any_group_nodes hdoc hg]

/-- Either side has a group of the given id. -/
def lists (s : Snapshot) (doc : Document) (group : String) : Bool :=
  s.groups.any (·.id == group) || doc.groups.any (·.id == group)

/-- The groups of a document are listed. -/
theorem lists_of_mem_groupIds {group : String} (h : group ∈ doc.groupIds) : lists s doc group = true := by
  obtain ⟨g, hg, hid⟩ := List.mem_map.1 h
  have hany : doc.groups.any (·.id == group) = true := List.any_eq_true.2 ⟨g, hg, by simpa using hid⟩
  rw [lists, hany, Bool.or_true]

/-- For a group with a member in the merge, being a group of the merge is being a group of either side. -/
theorem any_groups {m : Spec.Node} (hm : m ∈ nodes s doc) {group : String} (hgroup : m.group? = some group) :
    (groups s doc).any (·.id == group) = lists s doc group := by
  have hmember : (nodes s doc).any (·.group? == some group) = true := List.any_eq_true.2 ⟨m, hm, by simp [hgroup]⟩
  rw [lists, groups, List.any_append, List.any_map, List.any_map, List.any_filter]
  change (doc.groups.any (·.id == group) || s.groups.any fun g => _) = _
  cases hdoc : doc.groups.any (·.id == group) with
  | true => simp
  | false =>
    rw [Bool.false_or, Bool.or_false]
    congr 1
    funext g
    by_cases hg : g.id = group
    · simp [hg, hdoc, hmember]
    · simp [hg]

/-- No two groups of a merge share an id. -/
theorem groups_nodup (hs : s.IsNamed) (hd : doc.IsWritable) : ((groups s doc).map (·.id)).Nodup := by
  rw [groups, List.map_append, List.map_map, List.map_map]
  refine hd.groups_nodup.append ((hs.groups_nodup).sublist (List.filter_sublist.map _)) ?_
  intro id h1 h2
  obtain ⟨g, hg, rfl⟩ := List.mem_map.1 h1
  obtain ⟨g', hg', hid⟩ := List.mem_map.1 h2
  have hnot := (List.mem_filter.1 hg').2
  simp only [Bool.and_eq_true, Bool.not_eq_true', List.any_eq_false] at hnot
  exact hnot.1 g hg (by simpa using hid.symm)

end Merge

/-- The nodes of a merge are named by words, and so are the ends of its edges. -/
theorem isWord_merged {p : Char → Prop} {s : Snapshot} {doc : Document} (hdoc : doc.WellFormed p) :
    (∀ n ∈ Merge.nodes s doc, IsWord n.id) ∧ ∀ e ∈ Merge.edges s doc, IsWord e.source ∧ IsWord e.target := by
  have hword : ∀ id ∈ doc.nodeIds, IsWord id := by
    intro id hid
    obtain ⟨n, hn, rfl⟩ := List.mem_map.1 hid
    exact (hdoc.node n hn).id_word
  refine ⟨fun n hn => hword _ (Merge.mem_nodeIds_of_mem_nodes hn), fun e he => ?_⟩
  obtain ⟨e', he', hsource, htarget⟩ := Merge.exists_edge_of_mem_edges he
  obtain ⟨h1, h2⟩ := hdoc.edge_ends e' he'
  exact ⟨hsource ▸ hword _ h1, htarget ▸ hword _ h2⟩

/-- A merge is legible. -/
theorem isLegible_merged {p : Char → Prop} {s : Snapshot} {doc : Document} (hs : s.IsNamed) (hdoc : doc.WellFormed p)
    (hd : doc.IsWritable) : (merged s doc).IsLegible := by
  refine ⟨?_, Merge.groups_nodup hs hd, (isWord_merged hdoc).1, ?_, (isWord_merged hdoc).2, ?_⟩
  · exact (Merge.map_id_nodes_perm hs.nodes_nodup hdoc.nodes_nodup).nodup_iff.2 hdoc.nodes_nodup
  · intro g hg
    rcases List.mem_append.1 hg with hg | hg
    · obtain ⟨g', hg', rfl⟩ := List.mem_map.1 hg
      exact hd.group_word g' hg'
    · obtain ⟨g', hg', rfl⟩ := List.mem_map.1 hg
      exact hs.group_word g' (List.mem_of_mem_filter hg')
  · intro e he
    obtain ⟨e', he', hsource, -⟩ := Merge.exists_edge_of_mem_edges he
    exact hsource ▸ hd.edge_source e' he'

/-- No edge of a merge leads away from its nodes. -/
theorem danglingEnds_merged {p : Char → Prop} {s : Snapshot} {doc : Document} (hdoc : doc.WellFormed p) :
    (merged s doc).danglingEnds = [] := by
  have hends : ∀ id ∈ (merged s doc).edges.flatMap (fun e => [e.source, e.target]), id ∈ doc.nodeIds := by
    intro id hid
    obtain ⟨e, he, hend⟩ := List.mem_flatMap.1 hid
    obtain ⟨e', he', hsource, htarget⟩ := Merge.exists_edge_of_mem_edges he
    obtain ⟨h1, h2⟩ := hdoc.edge_ends e' he'
    simp only [List.mem_cons, List.not_mem_nil, or_false] at hend
    rcases hend with rfl | rfl
    · exact hsource ▸ h1
    · exact htarget ▸ h2
  have hnone : ((merged s doc).edges.flatMap fun e => [e.source, e.target]).filter
      (fun id => !(merged s doc).nodes.any (·.id == id)) = [] := by
    rw [List.filter_eq_nil_iff]
    intro id hid
    obtain ⟨n, hn, rfl⟩ := List.mem_map.1 ((Merge.mem_map_id_nodes id).2 (hends id hid))
    have hany : (merged s doc).nodes.any (·.id == n.id) = true := List.any_eq_true.2 ⟨n, hn, by simp⟩
    simp [hany]
  rw [Spec.danglingEnds, hnone]
  rfl

/-- The group that a node of a merge is written in: its own, if either side lists it. -/
theorem writtenGroup?_merged {s : Snapshot} {doc : Document} {m : Spec.Node} (hm : m ∈ Merge.nodes s doc) :
    (merged s doc).writtenGroup? m = m.group?.filter (Merge.lists s doc) := by
  rw [Spec.writtenGroup?, Spec.isGrouped]
  cases hg : m.group? with
  | none => rfl
  | some g =>
    have hgroups := Merge.any_groups hm hg
    rw [Option.any_some, Option.filter_some, ← hgroups]
    rfl

/-! ## Reading a merge -/

namespace Merge

variable {p : Char → Prop} {s : Snapshot} {doc : Document}

/-- A node of a merge is found in its text. -/
theorem node?_parse (hs : s.IsNamed) (hdoc : doc.WellFormed p) (hd : doc.IsWritable) {m : Spec.Node}
    (hm : m ∈ nodes s doc) :
    ∃ k, (Document.parse (merged s doc).render).node? m.id = some k ∧
      k.label? = some (Label.decode (Label.escape m.label)) ∧ k.shape = m.shape.normalized ∧
      k.group? = m.group?.filter (lists s doc) := by
  obtain ⟨k, hk, hdetails⟩ := (isLegible_merged hs hdoc hd).node?_parse hm
  refine ⟨k, hk, ?_, ?_, ?_⟩
  · rw [Document.Node.label?, hdetails]
    rfl
  · rw [Document.Node.shape, hdetails]
    rfl
  · rw [Document.Node.group?, hdetails, ← writtenGroup?_merged hm]
    rfl

/-- A node of both sides: what the document says of it comes first. -/
theorem node?_parse_kept (hs : s.IsNamed) (hdoc : doc.WellFormed (· ≠ '\r')) (hd : doc.IsWritable)
    {n : Snapshot.Node} (hn : n ∈ s.nodes) {i : Document.Node} (hi : doc.node? n.id = some i) :
    ∃ k, (Document.parse (merged s doc).render).node? n.id = some k ∧
      k.label? = some (i.label?.getD (Label.decode (Label.escape n.label))) ∧
      k.shape = (if i.isDeclared then i.shape else n.shape.normalized) ∧
      k.group? = i.group?.or (n.group?.filter (lists s doc)) := by
  obtain ⟨k, hk, hlabel, hshape, hgroup⟩ := node?_parse hs hdoc hd (keptNode_mem_nodes hn hi)
  have himem := (Document.mem_of_node? hi).1
  refine ⟨k, hk, ?_, ?_, ?_⟩
  · cases hl : i.label? with
    | none => simpa [hl] using hlabel
    | some l => simpa [hl, (hdoc.label?_isLabel himem l hl).decode_escape] using hlabel
  · rw [hshape]
    split
    · exact hdoc.shape_normalized himem
    · rfl
  · cases hg : i.group? with
    | none => simpa [hg] using hgroup
    | some g =>
      have hlisted : lists s doc g = true := lists_of_mem_groupIds (hdoc.group?_listed himem g hg)
      simpa [hg, hlisted, Option.filter] using hgroup

/-- A node of the document alone has the shape and the group that it has in the document. -/
theorem exists_parse_added (hs : s.IsNamed) (hdoc : doc.WellFormed p) (hd : doc.IsWritable) {i : Document.Node}
    (hi : i ∈ doc.nodes) (hnew : i.id ∉ s.nodeIds) :
    ∃ k, (Document.parse (merged s doc).render).node? i.id = some k ∧
      k.label? = some (Label.decode (Label.escape (i.label?.getD i.id))) ∧ k.shape = i.shape ∧ k.group? = i.group? := by
  obtain ⟨k, hk, hlabel, hshape, hgroup⟩ := node?_parse hs hdoc hd (addedNode_mem_nodes hi hnew)
  refine ⟨k, hk, hlabel, ?_, ?_⟩
  · rw [hshape]
    exact hdoc.shape_normalized hi
  · cases hg : i.group? with
    | none => simpa [addedNode, hg] using hgroup
    | some g =>
      have hlisted : lists s doc g = true := lists_of_mem_groupIds (hdoc.group?_listed hi g hg)
      simpa [addedNode, hg, hlisted, Option.filter] using hgroup

/-- Its label is that of the document too, or else its id. -/
theorem node?_parse_added (hs : s.IsNamed) (hdoc : doc.WellFormed (· ≠ '\r')) (hd : doc.IsWritable)
    {i : Document.Node} (hi : i ∈ doc.nodes) (hnew : i.id ∉ s.nodeIds) :
    ∃ k, (Document.parse (merged s doc).render).node? i.id = some k ∧
      k.label? = some (i.label?.getD i.id) ∧ k.shape = i.shape ∧ k.group? = i.group? := by
  obtain ⟨k, hk, hlabel, hshape, hgroup⟩ := exists_parse_added hs hdoc hd hi hnew
  refine ⟨k, hk, ?_, hshape, hgroup⟩
  cases hl : i.label? with
  | none => simpa [hl, (hdoc.node i hi).id_word.isLabel.decode_escape] using hlabel
  | some l => simpa [hl, (hdoc.label?_isLabel hi l hl).decode_escape] using hlabel

/-- The nodes that the text of a merge reads as are those of the document. -/
theorem nodeIds_parse_perm (hs : s.IsNamed) (hdoc : doc.WellFormed p) (hd : doc.IsWritable) :
    (Document.parse (merged s doc).render).nodeIds.Perm doc.nodeIds := by
  have hlegible := isLegible_merged hs hdoc hd
  have hread := congrArg (List.map (·.1)) hlegible.nodes_parse
  rw [danglingEnds_merged hdoc, List.map_nil, List.append_nil, List.map_map, List.map_map] at hread
  change (Document.parse (merged s doc).render).nodeIds = (merged s doc).placedNodes.map (·.id) at hread
  rw [hread]
  exact (((merged s doc).placedNodes_perm hlegible.groups_nodup).map _).trans
    (map_id_nodes_perm hs.nodes_nodup hdoc.nodes_nodup)

/-- The pairs that the text of a merge joins are those of the document. -/
theorem mem_pairs_parse (hs : s.IsNamed) (hdoc : doc.WellFormed p) (hd : doc.IsWritable) (pair : String × String) :
    pair ∈ (Document.parse (merged s doc).render).pairs ↔ pair ∈ doc.pairs := by
  have hread := congrArg (List.map fun e => (e.1, e.2.1)) (isLegible_merged hs hdoc hd).edges_parse
  rw [List.map_map, List.map_map] at hread
  change (Document.parse (merged s doc).render).pairs = (edges s doc).map (fun e => (e.source, e.target)) at hread
  rw [hread]
  exact mem_pairs_edges pair

/-- The edges that the text of a merge reads as. -/
theorem edges_parse (hs : s.IsNamed) (hdoc : doc.WellFormed (· ≠ '\r')) (hd : doc.IsWritable) :
    (Document.parse (merged s doc).render).edges.map (fun e => (e.source, e.target, e.dashed, e.label?)) =
      (s.edges.filter fun e => doc.pairs.contains (e.source, e.target)).map (fun e =>
        (e.source, e.target, e.dashed, (writtenLabel? e.label?).map Label.decode)) ++
      (doc.edges.filter fun e => !s.pairs.contains (e.source, e.target)).map (fun e =>
        (e.source, e.target, e.dashed, e.label?.filter (· != ""))) := by
  have hedges : (merged s doc).edges = edges s doc := rfl
  rw [(isLegible_merged hs hdoc hd).edges_parse, hedges, edges, List.map_append, List.map_map, List.map_map]
  congr 1
  apply List.map_congr_left
  intro e he
  simp only [Function.comp_apply]
  rw [IsLabel.decode_writtenLabel? (hdoc.edge_label e (List.mem_of_mem_filter he))]

/-- The groups that the text of a merge reads as. -/
theorem groups_parse (hs : s.IsNamed) (hdoc : doc.WellFormed (· ≠ '\r')) (hd : doc.IsWritable) :
    (Document.parse (merged s doc).render).groups.map (fun g => (g.id, g.label)) =
      doc.groups.map (fun g => (g.id, g.label)) ++
      (s.groups.filter fun g => !doc.groupIds.contains g.id && keepsMember s doc g.id).map (fun g =>
        (g.id, Label.decode (Label.escape g.label))) := by
  have hgroups : (merged s doc).groups = groups s doc := rfl
  rw [(isLegible_merged hs hdoc hd).groups_parse, hgroups, groups_eq fun n hn => hdoc.group?_listed hn,
    List.map_append, List.map_map, List.map_map]
  congr 1
  apply List.map_congr_left
  intro g hg
  simp only [Function.comp_apply, (hdoc.group_label g hg).decode_escape]

end Merge

/-- Merging is correct. What the text of a merge reads as has the nodes of the incoming text and joins the same pairs; its
direction is that of the text, or else that of the canvas. A node of both sides has the label, the shape and the group
that the text gives it, or else those of the canvas, as they can be written; a node of the text alone is as in the text. The
edges of the canvas whose pairs are in the text come first, each once, and then the edges of the text whose pairs are not
on the canvas. The groups of the text come first, and then those of the canvas that keep a member. -/
theorem Document.parse_mergedText (s : Snapshot) (text : String) (hs : s.IsNamed) (htext : HasPairedReturns text.toList)
    (hd : (Document.parse text).IsWritable) :
    let d := Document.parse text
    let m := Document.parse (mergedText s text)
    m.direction? = some (d.direction?.getD s.direction) ∧
    m.nodeIds.Perm d.nodeIds ∧
    (∀ pair, pair ∈ m.pairs ↔ pair ∈ d.pairs) ∧
    (∀ n ∈ s.nodes, ∀ i, d.node? n.id = some i → ∃ k, m.node? n.id = some k ∧
      k.label? = some (i.label?.getD (Label.decode (Label.escape n.label))) ∧
      k.shape = (if i.isDeclared then i.shape else n.shape.normalized) ∧
      k.group? = i.group?.or (n.group?.filter (Merge.lists s d))) ∧
    (∀ i ∈ d.nodes, i.id ∉ s.nodeIds → ∃ k, m.node? i.id = some k ∧
      k.label? = some (i.label?.getD i.id) ∧ k.shape = i.shape ∧ k.group? = i.group?) ∧
    m.edges.map (fun e => (e.source, e.target, e.dashed, e.label?)) =
      (s.edges.filter fun e => d.pairs.contains (e.source, e.target)).map (fun e =>
        (e.source, e.target, e.dashed, (writtenLabel? e.label?).map Label.decode)) ++
      (d.edges.filter fun e => !s.pairs.contains (e.source, e.target)).map (fun e =>
        (e.source, e.target, e.dashed, e.label?.filter (· != ""))) ∧
    m.groups.map (fun g => (g.id, g.label)) =
      d.groups.map (fun g => (g.id, g.label)) ++
      (s.groups.filter fun g => !d.groupIds.contains g.id && Merge.keepsMember s d g.id).map (fun g =>
        (g.id, Label.decode (Label.escape g.label))) := by
  intro d m
  have hdoc : d.WellFormed (· ≠ '\r') := Document.wellFormed_parse_of_pairedReturns htext
  have hlegible : (merged s d).IsLegible := isLegible_merged hs hdoc hd
  refine ⟨hlegible.direction?_parse, ?_, ?_, ?_, ?_, ?_, ?_⟩
  · exact Merge.nodeIds_parse_perm hs hdoc hd
  · exact Merge.mem_pairs_parse hs hdoc hd
  · exact fun n hn i hi => Merge.node?_parse_kept hs hdoc hd hn hi
  · exact fun i hi hnew => Merge.node?_parse_added hs hdoc hd hi hnew
  · exact Merge.edges_parse hs hdoc hd
  · exact Merge.groups_parse hs hdoc hd

/-- A canvas with a node in a group, an edge with a label, and a node and a group that the incoming text leaves out. -/
def Snapshot.beforeMerge : Snapshot where
  nodes := [⟨"a", "Start\n", .ellipse, some "g"⟩, ⟨"b", "B", .rectangle, none⟩, ⟨"c", "C", .rectangle, some "h"⟩]
  edges := [⟨"a", "b", some " x|y ", true⟩, ⟨"b", "c", none, false⟩]
  groups := [⟨"g", "Group \"G\""⟩, ⟨"h", "H"⟩]

/-- A text that keeps two of the nodes and adds one in a group of its own. -/
def incomingText : String := "flowchart LR\nsubgraph k\nd((new))\nend\na --> b\nb(\"bee\") -.->|go| d\n"

/-- The edge on the canvas keeps its look beside the new one, and the group that has a member left is kept. -/
theorem Document.parse_mergedText_beforeMerge :
    Snapshot.beforeMerge.IsNamed ∧ HasPairedReturns incomingText.toList ∧
    (Document.parse incomingText).IsWritable ∧
    (Document.parse (mergedText Snapshot.beforeMerge incomingText)).edges.map
      (fun e => (e.source, e.target, e.dashed, e.label?)) =
        [("a", "b", true, some "xy"), ("b", "d", true, some "go")] ∧
    (Document.parse (mergedText Snapshot.beforeMerge incomingText)).groups.map (fun g => (g.id, g.label)) =
        [("k", "k"), ("g", "Group \"G\"")] := by
  have hs : Snapshot.beforeMerge.IsNamed := ⟨by decide, by decide, by decide⟩
  have htext : HasPairedReturns incomingText.toList := hasPairedReturns_of_notMem (by decide)
  have hd : (Document.parse incomingText).IsWritable :=
    ⟨by decide +kernel, by decide +kernel, by decide +kernel⟩
  have hmerge := Document.parse_mergedText Snapshot.beforeMerge incomingText hs htext hd
  exact ⟨hs, htext, hd, hmerge.2.2.2.2.2.1.trans (by decide +kernel), hmerge.2.2.2.2.2.2.trans (by decide +kernel)⟩

end Whiteboard
