import Whiteboard.Proofs.Diagram.RoundTrip
import Whiteboard.Proofs.Diagram.WellFormed

/-!
# Nodes and edges that are read back

Main statements: the text of a description reads as its nodes and its edges, whatever its groups are called, as long as
no group id breaks a line (`Spec.IsReadable.reading_render`), and it declares every node with a shape that the description
gives it (`Spec.exists_details_parse`). Ids may repeat: a node that is written twice is read once.

Unlike in a round trip only the ids of the nodes and the pairs that edges join are followed (`Reading.Adds`), or only what
is declared of a node (`Reading.Declares`). The title of a group does not matter to either, so a line that opens a group
only has to be recognized as one.
-/

namespace Whiteboard

open Text

namespace Spec

/-- A description whose nodes and edges are read back: the ids of nodes are words, no group id breaks a line, and no edge
starts at a word that makes its line something else. -/
structure IsReadable (spec : Spec) : Prop where
  node_word : ∀ n ∈ spec.nodes, IsWord n.id
  group_unbroken : ∀ g ∈ spec.groups, '\n' ∉ g.id.toList
  edge_word : ∀ e ∈ spec.edges, IsWord e.source ∧ IsWord e.target
  edge_source : ∀ e ∈ spec.edges, e.source ∉ lineKeywords

end Spec

/-! ## Lines that open a group -/

/-- A line that opens a group is recognized whatever the group is called. -/
theorem exists_classify_groupOpenLine (id label : String) (depth : Nat) :
    ∃ title, Line.classify (indented depth (groupOpenLine id label)).toList = .groupOpen title := by
  have hends : ∀ c ∈ "subgraph".toList, Line.isWordEnd c = false := List.all_iff_forall_prop.1 (by decide)
  have hstart : StartsWithIdChar ("subgraph".toList ++ ' ' :: groupTitle id label) := ⟨'s', _, rfl, by decide⟩
  have hblank : ∀ d ∈ ("subgraph".toList ++ ' ' :: groupTitle id label).getLast?, isBlank d = false := by
    rw [List.append_cons, getLast?_groupTitle]
    rintro d ⟨⟩
    decide
  refine ⟨Line.afterFirstWord ("subgraph".toList ++ ' ' :: groupTitle id label), ?_⟩
  rw [toList_indented, toList_groupOpenLine, Line.classify_indented hstart hblank, Line.firstWord_append hends,
    String.ofList_toList, Line.ofFirstWord, if_neg (by simp [groupCloseLine]), if_pos (by rfl)]

/-- A line that opens a group stays one line, if the id of the group does. -/
theorem isBodyLine_groupOpenLine {id : String} (hid : '\n' ∉ id.toList) (label : String) (depth : Nat) :
    IsBodyLine (indented depth (groupOpenLine id label)).toList := by
  have hsplit : (indented depth (groupOpenLine id label)).toList =
      (List.replicate (4 * depth) ' ' ++ "subgraph".toList ++ [' ']) ++ groupTitle id label := by
    rw [toList_indented, toList_groupOpenLine]
    simp
  refine ⟨?_, ?_, ?_⟩
  · intro hmem
    have hescape : '\n' ∉ (Label.escape label).toList := fun h => (Label.mem_escape h).2.1 rfl
    rw [hsplit, groupTitle] at hmem
    simp [hid, hescape] at hmem
  · rw [hsplit, getLast?_groupTitle]
    decide
  · intro n
    have htrim : trimStart (indented depth (groupOpenLine id label)).toList =
        "subgraph".toList ++ ' ' :: groupTitle id label := by
      rw [toList_indented, toList_groupOpenLine]
      refine trimStart_append_of_blanks (fun _ => isBlank_of_mem_indentation) ?_
      rintro c ⟨⟩
      decide
    rw [NumberedLine.isFence, htrim]
    exact StartsWithIdChar.isPrefixOf ⟨'s', _, rfl, by decide⟩ _ (by decide)

/-! ## What a line adds -/

namespace Document

namespace Reading

/-- What has been read grows by nodes of the given ids, if they are not there yet, and by edges that join the given
pairs. -/
def Adds (r r' : Reading) (ids : List String) (pairs : List (String × String)) : Prop :=
  (∀ id, id ∈ r'.document.nodeIds ↔ id ∈ r.document.nodeIds ∨ id ∈ ids) ∧
    r'.document.pairs = r.document.pairs ++ pairs

theorem Adds.nothing {r r' : Reading} (hids : r'.document.nodeIds = r.document.nodeIds)
    (hpairs : r'.document.pairs = r.document.pairs) : Adds r r' [] [] := by
  refine ⟨fun id => ?_, ?_⟩
  · simp [hids]
  · rw [hpairs, List.append_nil]

theorem Adds.trans {r r' r'' : Reading} {ids ids' : List String} {pairs pairs' : List (String × String)}
    (h : Adds r r' ids pairs) (h' : Adds r' r'' ids' pairs') : Adds r r'' (ids ++ ids') (pairs ++ pairs') := by
  refine ⟨fun id => ?_, ?_⟩
  · rw [h'.1, h.1, List.mem_append, or_assoc]
  · rw [h'.2, h.2, List.append_assoc]

end Reading

open Reading (Adds)

/-- A mention adds its id, if it is not there yet. -/
theorem mem_ids_mention (nodes : List Node) (mentioned id : String) :
    id ∈ (mention nodes mentioned).map (·.id) ↔ id ∈ nodes.map (·.id) ∨ id = mentioned := by
  rw [← noteRef_bare none nodes mentioned 0, mem_ids_noteRef]

/-- The line of a node adds the node. -/
theorem adds_node (r : Reading) {n : Spec.Node} (depth : Nat) (hid : IsWord n.id) :
    Adds r (r.read (indented depth n.line).toList) [n.id] [] := by
  have hread : (r.read (indented depth n.line).toList).document = r.document.addStatement r.openGroups.head? 0
      ⟨⟨⟨n.id, some ⟨n.shape.normalized, Label.escape n.label, true⟩, 1⟩, []⟩, []⟩ := by
    simp [Reading.read, Reading.step, Spec.Node.line, classify_nodeLine hid, parse_nodeLine hid]
  refine ⟨fun id => ?_, ?_⟩
  · rw [hread]
    simp only [addStatement, nodeIds, Statement.refs, Statement.groups, NodeGroup.refs, List.map_nil, List.flatMap_cons,
      List.flatMap_nil, List.append_nil, List.foldl_cons, List.foldl_nil, mem_ids_noteRef, List.mem_singleton]
  · rw [hread]
    simp [addStatement, pairs, Statement.hops, Statement.groups]

/-- A line that opens a group opens one, under some name. -/
theorem exists_read_groupOpen (r : Reading) (g : Spec.Group) :
    ∃ title, r.read (indented 1 (groupOpenLine g.id g.label)).toList =
      { r with
        openGroups := (groupOfTitle title).1 :: r.openGroups
        document := { r.document with
          groups := r.document.groups ++ [⟨(groupOfTitle title).1, (groupOfTitle title).2, 0⟩] } } := by
  obtain ⟨title, htitle⟩ := exists_classify_groupOpenLine g.id g.label 1
  exact ⟨title, by simp [Reading.read, Reading.step, htitle]⟩

/-- A line that opens a group adds neither nodes nor edges. -/
theorem adds_groupOpen (r : Reading) (g : Spec.Group) :
    Adds r (r.read (indented 1 (groupOpenLine g.id g.label)).toList) [] [] := by
  obtain ⟨title, hread⟩ := exists_read_groupOpen r g
  rw [hread]
  exact .nothing rfl rfl

/-- A line that closes a group adds neither nodes nor edges. -/
theorem adds_groupClose (r : Reading) : Adds r (r.read (indented 1 groupCloseLine).toList) [] [] := by
  rw [read_groupClose]
  exact .nothing rfl rfl

/-- The line of an edge adds the edge and its two ends. -/
theorem adds_edge (r : Reading) {e : Spec.Edge} (hword : IsWord e.source ∧ IsWord e.target)
    (hk : e.source ∉ lineKeywords) :
    Adds r (r.read (indented 1 e.line).toList) [e.source, e.target] [(e.source, e.target)] := by
  rw [read_edge hword.1 hword.2 hk]
  refine ⟨fun id => ?_, ?_⟩
  · simp only [nodeIds, List.foldl_cons, List.foldl_nil, mem_ids_mention, List.mem_cons, List.not_mem_nil, or_false,
      or_assoc]
  · simp [pairs, Spec.Edge.written]

/-! ## What a description adds -/

/-- The lines of nodes add the nodes. -/
theorem adds_nodes (r : Reading) (depth : Nat) {ns : List Spec.Node} (hid : ∀ n ∈ ns, IsWord n.id) :
    Adds r ((ns.map fun n => (indented depth n.line).toList).foldl Reading.read r) (ns.map (·.id)) [] := by
  induction ns generalizing r with
  | nil => exact .nothing rfl rfl
  | cons n ns ih =>
    rw [List.forall_mem_cons] at hid
    exact (adds_node r depth hid.1).trans (ih _ hid.2)

/-- The lines of a group: its opening, its members and its closing. -/
theorem map_toList_groupLines (spec : Spec) (g : Spec.Group) :
    (spec.groupLines g).map (·.toList) = (indented 1 (groupOpenLine g.id g.label)).toList ::
      (((spec.members g.id).map fun n => (indented 2 n.line).toList) ++ [(indented 1 groupCloseLine).toList]) := by
  simp [Spec.groupLines]

/-- The lines of a group add its members. -/
theorem adds_group (r : Reading) {spec : Spec} (h : spec.IsReadable) (g : Spec.Group) :
    Adds r (((spec.groupLines g).map (·.toList)).foldl Reading.read r) ((spec.members g.id).map (·.id)) [] := by
  have hmembers : ∀ n ∈ spec.members g.id, IsWord n.id := fun n hn => h.node_word n (List.mem_of_mem_filter hn)
  rw [map_toList_groupLines, List.foldl_cons, List.foldl_append, List.foldl_cons, List.foldl_nil]
  have hall := ((adds_groupOpen r g).trans (adds_nodes _ 2 hmembers)).trans (adds_groupClose _)
  rwa [List.nil_append, List.append_nil] at hall

/-- The lines of groups add the members of each. -/
theorem adds_groups (r : Reading) {spec : Spec} (h : spec.IsReadable) (gs : List Spec.Group) :
    Adds r (((gs.flatMap spec.groupLines).map (·.toList)).foldl Reading.read r)
      ((gs.flatMap fun g => spec.members g.id).map (·.id)) [] := by
  induction gs generalizing r with
  | nil => exact .nothing rfl rfl
  | cons g gs ih =>
    rw [List.flatMap_cons, List.map_append, List.foldl_append, List.flatMap_cons, List.map_append]
    exact (adds_group r h g).trans (ih _)

/-- The lines of edges add the edges and their ends. -/
theorem adds_edges (r : Reading) {es : List Spec.Edge} (hword : ∀ e ∈ es, IsWord e.source ∧ IsWord e.target)
    (hk : ∀ e ∈ es, e.source ∉ lineKeywords) :
    Adds r ((es.map fun e => (indented 1 e.line).toList).foldl Reading.read r)
      (es.flatMap fun e => [e.source, e.target]) (es.map fun e => (e.source, e.target)) := by
  induction es generalizing r with
  | nil => exact .nothing rfl rfl
  | cons e es ih =>
    rw [List.forall_mem_cons] at hword hk
    exact (adds_edge r hword.1 hk.1).trans (ih _ hword.2 hk.2)

end Document

namespace Spec

/-- Every line of a description stays in the body of its text, if no group id breaks a line. -/
theorem isBodyLine_toLines {spec : Spec} (hnodes : ∀ n ∈ spec.nodes, IsWord n.id)
    (hgroups : ∀ g ∈ spec.groups, '\n' ∉ g.id.toList) (hedges : ∀ e ∈ spec.edges, IsWord e.source ∧ IsWord e.target) :
    ∀ l ∈ spec.toLines.map (·.toList), IsBodyLine l := by
  intro l hl
  obtain ⟨line, hline, rfl⟩ := List.mem_map.1 hl
  simp only [toLines, List.cons_append, List.mem_cons, List.mem_append, List.mem_map, List.mem_flatMap,
    List.mem_filter] at hline
  rcases hline with rfl | (⟨n, hn, rfl⟩ | ⟨g, hg, hline⟩) | ⟨e, he, rfl⟩
  · exact (isWrittenLine_headerLine _).isBodyLine
  · exact (isWrittenLine_nodeLine (hnodes n hn.1) _ _ _).isBodyLine
  · simp only [groupLines, List.cons_append, List.mem_cons, List.mem_append, List.mem_map, List.not_mem_nil,
      or_false] at hline
    rcases hline with rfl | ⟨n, hn, rfl⟩ | rfl
    · exact isBodyLine_groupOpenLine (hgroups g hg) _ _
    · exact (isWrittenLine_nodeLine (hnodes n (List.mem_of_mem_filter hn)) _ _ _).isBodyLine
    · exact isWrittenLine_groupCloseLine.isBodyLine
  · exact (isWrittenLine_edgeLine (hedges e he).1 (hedges e he).2 _ _ _).isBodyLine

/-- Every node is written, outside every group or as a member of one. -/
theorem mem_placedNodes (spec : Spec) (n : Node) : n ∈ spec.placedNodes ↔ n ∈ spec.nodes := by
  rw [placedNodes, List.mem_append, List.mem_filter, List.mem_flatMap]
  constructor
  · rintro (⟨hn, -⟩ | ⟨g, -, hn⟩)
    · exact hn
    · exact List.mem_of_mem_filter hn
  · intro hn
    cases hgrouped : spec.isGrouped n with
    | false => exact Or.inl ⟨hn, rfl⟩
    | true =>
      obtain ⟨group, hgroup, hlisted⟩ := (Option.any_eq_true _ _).1 hgrouped
      obtain ⟨g, hg, heq⟩ := List.any_eq_true.1 hlisted
      exact Or.inr ⟨g, hg, List.mem_filter.2 ⟨hn, by rw [hgroup, beq_iff_eq.1 heq, beq_self_eq_true]⟩⟩

/-- What the text of a readable description adds to an empty document. -/
theorem IsReadable.adds_toLines {spec : Spec} (h : spec.IsReadable) :
    Document.Reading.Adds {} ((spec.toLines.map (·.toList)).foldl Document.Reading.read {})
      (spec.placedNodes.map (·.id) ++ spec.edges.flatMap fun e => [e.source, e.target])
      (spec.edges.map fun e => (e.source, e.target)) := by
  have hungrouped : ∀ n ∈ spec.nodes.filter (!spec.isGrouped ·), IsWord n.id := fun n hn =>
    h.node_word n (List.mem_of_mem_filter hn)
  have hheader : Document.Reading.Adds {} (({} : Document.Reading).read (headerLine spec.direction).toList) [] [] := by
    rw [Document.read_header]
    exact .nothing rfl rfl
  have hall := ((hheader.trans (Document.adds_nodes _ 1 hungrouped)).trans
    (Document.adds_groups _ h spec.groups)).trans (Document.adds_edges _ h.edge_word h.edge_source)
  rw [toLines, placedNodes, List.map_append]
  simp only [List.cons_append, List.map_cons, List.map_append, List.map_map, List.foldl_cons, List.foldl_append]
  exact hall

/-- The text of a readable description reads as its nodes, with the ends of its edges, and as its edges. -/
theorem IsReadable.reading_render {spec : Spec} (h : spec.IsReadable) :
    (∀ id, id ∈ (Document.parse spec.render).nodeIds ↔
      (∃ n ∈ spec.nodes, n.id = id) ∨ ∃ e ∈ spec.edges, e.source = id ∨ e.target = id) ∧
    (Document.parse spec.render).pairs = spec.edges.map fun e => (e.source, e.target) := by
  have hread := Document.unnumbered_parse spec.toList_render
    (isBodyLine_toLines h.node_word h.group_unbroken h.edge_word)
  have hids : (Document.parse spec.render).nodeIds = (Document.parse spec.render).unnumbered.nodeIds := by
    simp [Document.nodeIds, Document.unnumbered]
  have hpairs : (Document.parse spec.render).pairs = (Document.parse spec.render).unnumbered.pairs := by
    simp [Document.pairs, Document.unnumbered]
  obtain ⟨hnodes, hedges⟩ := h.adds_toLines
  rw [hids, hpairs, hread]
  refine ⟨fun id => ?_, hedges⟩
  rw [hnodes, List.mem_append, List.mem_map, List.mem_flatMap]
  simp only [Document.nodeIds, List.map_nil, List.not_mem_nil, false_or, mem_placedNodes, List.mem_cons, or_false,
    eq_comm (a := id)]

end Spec

/-! ## Shapes that are read back -/

namespace Document

/-- What the declaration of a node says of it, if it is declared among the given nodes. -/
def detailsIn? (nodes : List Node) (id : String) : Option Details := (nodes.find? (·.id == id)).bind (·.details?)

/-- Leaving out the line numbers keeps the details of every node. -/
theorem detailsIn?_unnumbered (doc : Document) (id : String) :
    detailsIn? doc.unnumbered.nodes id = detailsIn? doc.nodes id := by
  rw [detailsIn?, unnumbered, List.find?_map, Option.bind_map]
  rfl

/-- A reference leaves the other nodes as they are; to its own node it adds what it says, and that node is new if there was
none. -/
theorem find?_noteRef (group? : Option String) (line : Nat) (nodes : List Node) (ref : NodeRef) (id : String) :
    (noteRef group? line nodes ref).find? (·.id == id) =
      if ref.id = id then
        some ((nodes.find? (·.id == id)).elim ⟨ref.id, line, detailsOf? group? ref⟩ fun node =>
          { node with details? := node.details?.or (detailsOf? group? ref) })
      else nodes.find? (·.id == id) := by
  rw [noteRef]
  split
  · rename_i hknown
    have hids : ((·.id == id) ∘ fun n : Node =>
        if n.id == ref.id then { n with details? := n.details?.or (detailsOf? group? ref) } else n) = (·.id == id) := by
      funext n
      simp only [Function.comp_apply]
      split <;> rfl
    rw [List.find?_map, hids]
    cases hn : nodes.find? (·.id == id) with
    | none =>
      have hne : ref.id ≠ id := by
        rintro rfl
        obtain ⟨n, hmem, hid⟩ := List.any_eq_true.1 hknown
        exact List.find?_eq_none.1 hn n hmem hid
      rw [if_neg hne, Option.map_none]
    | some n =>
      have hid : n.id = id := by simpa using List.find?_some hn
      by_cases href : ref.id = id
      · simp [hid, href]
      · simp [hid, href, Ne.symm href]
  · rename_i hnew
    rw [List.find?_append]
    cases hn : nodes.find? (·.id == id) with
    | none => by_cases href : ref.id = id <;> simp [href]
    | some n =>
      have hne : ref.id ≠ id := by
        rintro rfl
        exact hnew (List.any_eq_true.2 ⟨n, List.mem_of_find?_eq_some hn, by simpa using List.find?_some hn⟩)
      simp [hne]

/-- A reference that declares a node gives it details, unless the node has some already. -/
theorem detailsIn?_noteRef (group? : Option String) (line : Nat) (nodes : List Node) (ref : NodeRef) (id : String) :
    detailsIn? (noteRef group? line nodes ref) id =
      (detailsIn? nodes id).or (if ref.id = id then detailsOf? group? ref else none) := by
  rw [detailsIn?, find?_noteRef, detailsIn?]
  split
  · cases nodes.find? (·.id == id) <;> rfl
  · rw [Option.or_none]

/-- What is known of a declared node stays, whatever references follow. -/
theorem detailsIn?_foldl_noteRef {group? : Option String} {line : Nat} {nodes : List Node} {id : String} {d : Details}
    (h : detailsIn? nodes id = some d) (refs : List NodeRef) :
    detailsIn? (refs.foldl (noteRef group? line) nodes) id = some d := by
  induction refs generalizing nodes with
  | nil => exact h
  | cons ref refs ih => exact ih (by rw [detailsIn?_noteRef, h, Option.some_or])

namespace Reading

/-- What is known of a declared node stays, whatever the next line is. -/
theorem detailsIn?_read {r : Reading} {id : String} {d : Details} (h : detailsIn? r.document.nodes id = some d)
    (line : List Char) : detailsIn? (r.read line).document.nodes id = some d := by
  rw [read, step]
  split
  · split <;> exact h
  · exact h
  · exact h
  · split
    · exact h
    · exact detailsIn?_foldl_noteRef h _
  all_goals exact h

/-- Details that have been read are kept by all further lines. -/
theorem detailsIn?_foldl_read {r : Reading} {id : String} {d : Details} (h : detailsIn? r.document.nodes id = some d)
    (lines : List (List Char)) : detailsIn? (lines.foldl read r).document.nodes id = some d := by
  induction lines generalizing r with
  | nil => exact h
  | cons line lines ih => exact ih (detailsIn?_read h line)

/-- What has been read grows by declarations of the given nodes, the first one of a node counting. -/
def Declares (r r' : Reading) (ns : List Spec.Node) : Prop :=
  ∀ id, (detailsIn? r'.document.nodes id).map (·.shape) =
    ((detailsIn? r.document.nodes id).map (·.shape)).or ((ns.find? (·.id == id)).map (·.shape.normalized))

theorem Declares.nothing {r r' : Reading} (h : r'.document.nodes = r.document.nodes) : Declares r r' [] := by
  intro id
  rw [h, List.find?_nil, Option.map_none, Option.or_none]

theorem Declares.trans {r r' r'' : Reading} {ns ns' : List Spec.Node} (h : Declares r r' ns) (h' : Declares r' r'' ns') :
    Declares r r'' (ns ++ ns') := by
  intro id
  rw [h', h, List.find?_append, Option.map_or, Option.or_assoc]

end Reading

open Reading (Declares)

/-- The line of a node declares the node. -/
theorem declares_node (r : Reading) {n : Spec.Node} (depth : Nat) (hid : IsWord n.id) :
    Declares r (r.read (indented depth n.line).toList) [n] := by
  intro id
  have hread : (r.read (indented depth n.line).toList).document.nodes =
      noteRef r.openGroups.head? 0 r.document.nodes ⟨n.id, some ⟨n.shape.normalized, Label.escape n.label, true⟩, 1⟩ := by
    simp [Reading.read, Reading.step, Spec.Node.line, classify_nodeLine hid, parse_nodeLine hid, addStatement,
      Statement.refs, Statement.groups, NodeGroup.refs]
  rw [hread, detailsIn?_noteRef, Option.map_or]
  by_cases hn : n.id = id <;> simp [hn, detailsOf?]

/-- The lines of nodes declare the nodes. -/
theorem declares_nodes (r : Reading) (depth : Nat) {ns : List Spec.Node} (hid : ∀ n ∈ ns, IsWord n.id) :
    Declares r ((ns.map fun n => (indented depth n.line).toList).foldl Reading.read r) ns := by
  induction ns generalizing r with
  | nil => exact .nothing rfl
  | cons n ns ih =>
    rw [List.forall_mem_cons] at hid
    exact (declares_node r depth hid.1).trans (ih _ hid.2)

/-- The lines of a group declare its members. -/
theorem declares_group (r : Reading) {spec : Spec} (hword : ∀ n ∈ spec.nodes, IsWord n.id) (g : Spec.Group) :
    Declares r (((spec.groupLines g).map (·.toList)).foldl Reading.read r) (spec.members g.id) := by
  have hmembers : ∀ n ∈ spec.members g.id, IsWord n.id := fun n hn => hword n (List.mem_of_mem_filter hn)
  rw [map_toList_groupLines, List.foldl_cons, List.foldl_append, List.foldl_cons, List.foldl_nil]
  have hopen : Declares r (r.read (indented 1 (groupOpenLine g.id g.label)).toList) [] := by
    obtain ⟨title, hread⟩ := exists_read_groupOpen r g
    exact .nothing (congrArg (·.document.nodes) hread)
  have hclose : ∀ r : Reading, Declares r (r.read (indented 1 groupCloseLine).toList) [] := fun r =>
    .nothing (congrArg (·.document.nodes) (read_groupClose r))
  have hall := (hopen.trans (declares_nodes _ 2 hmembers)).trans (hclose _)
  rwa [List.nil_append, List.append_nil] at hall

/-- The lines of groups declare the members of each. -/
theorem declares_groups (r : Reading) {spec : Spec} (hword : ∀ n ∈ spec.nodes, IsWord n.id) (gs : List Spec.Group) :
    Declares r (((gs.flatMap spec.groupLines).map (·.toList)).foldl Reading.read r)
      (gs.flatMap fun g => spec.members g.id) := by
  induction gs generalizing r with
  | nil => exact .nothing rfl
  | cons g gs ih =>
    rw [List.flatMap_cons, List.map_append, List.foldl_append, List.flatMap_cons]
    exact (declares_group r hword g).trans (ih _)

end Document

namespace Spec

/-- The text of a description declares every node of it with the shape of its first declaration, whatever its edges read as:
what follows a declaration takes nothing of it back. -/
theorem exists_details_parse {spec : Spec} (hnodes : ∀ n ∈ spec.nodes, IsWord n.id)
    (hgroups : ∀ g ∈ spec.groups, '\n' ∉ g.id.toList) (hedges : ∀ e ∈ spec.edges, IsWord e.source ∧ IsWord e.target)
    {n : Node} (hn : n ∈ spec.nodes) :
    ∃ m ∈ spec.nodes, m.id = n.id ∧ ∃ k d, (Document.parse spec.render).node? n.id = some k ∧ k.details? = some d ∧
      d.shape = m.shape.normalized := by
  have hungrouped : ∀ n ∈ spec.nodes.filter (!spec.isGrouped ·), IsWord n.id := fun n hn =>
    hnodes n (List.mem_of_mem_filter hn)
  have hread := congrArg Document.nodes
    (Document.unnumbered_parse spec.toList_render (isBodyLine_toLines hnodes hgroups hedges))
  rw [toLines] at hread
  simp only [List.cons_append, List.map_cons, List.map_append, List.map_map, List.foldl_cons, List.foldl_append] at hread
  have hheader : Document.Reading.Declares {} (({} : Document.Reading).read (headerLine spec.direction).toList) [] :=
    .nothing (congrArg (·.document.nodes) (Document.read_header spec.direction))
  have hdeclared := (hheader.trans (Document.declares_nodes _ 1 hungrouped)).trans
    (Document.declares_groups _ hnodes spec.groups)
  obtain ⟨m, hm⟩ := Option.isSome_iff_exists.1
    (List.find?_isSome.2 ⟨n, (spec.mem_placedNodes n).2 hn, beq_iff_eq.2 rfl⟩ :
      (spec.placedNodes.find? (·.id == n.id)).isSome = true)
  have hshape := hdeclared n.id
  rw [List.nil_append, ← placedNodes, hm] at hshape
  obtain ⟨d, hd, hdm⟩ := Option.map_eq_some_iff.1 hshape
  have hkept := Document.Reading.detailsIn?_foldl_read hd (spec.edges.map fun e => (indented 1 e.line).toList)
  have hlast : Document.detailsIn? (Document.parse spec.render).unnumbered.nodes n.id = some d := by
    rw [hread]
    exact hkept
  rw [Document.detailsIn?_unnumbered] at hlast
  obtain ⟨k, hk, hkd⟩ := Option.bind_eq_some_iff.1 hlast
  exact ⟨m, (spec.mem_placedNodes m).1 (List.mem_of_find?_eq_some hm), by simpa using List.find?_some hm, k, d, hk, hkd,
    hdm⟩

end Spec

end Whiteboard
