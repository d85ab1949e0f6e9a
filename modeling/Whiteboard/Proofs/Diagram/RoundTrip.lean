import Whiteboard.Proofs.Diagram.Numbering
import Whiteboard.Proofs.Diagram.Printer
import Mathlib.Data.List.Perm.Basic
import Mathlib.Data.List.Nodup

/-!
# Descriptions read back

Main statement: the text of a description, whatever its labels, reads as the document of the description
(`Document.parse_render`). `Spec.document` says what that document is, without line numbers: the nodes as they are
placed, those outside every group first and then the members of each group, behind them the endpoints of edges that no
node declares, and every label in its normal form.

The text is read line by line. For each kind of line there is a statement about one step (`read_node`, `read_edge` and so
on), and for each part of a description one about the steps over that part, which says how the document grows.
-/

namespace Whiteboard

open Text

namespace Document

/-! ## Line numbers aside -/

/-- The document with every line number left out. -/
def unnumbered (doc : Document) : Document :=
  { doc with
    nodes := doc.nodes.map ({ · with line := 0 })
    edges := doc.edges.map ({ · with line := 0 })
    groups := doc.groups.map ({ · with line := 0 })
    declarations := doc.declarations.map ({ · with line := 0 }) }

namespace Reading

/-- What has been read, with every line number left out. -/
def unnumbered (r : Reading) : Reading := { r with document := r.document.unnumbered }

/-- Reading one more line that has no number. -/
def read (r : Reading) (text : List Char) : Reading := r.step ⟨0, text⟩

end Reading

/-- The number of a line has no effect but on the numbers in the document. -/
theorem Reading.unnumbered_step (r : Reading) (line : NumberedLine) :
    (r.step line).unnumbered = r.unnumbered.read line.text :=
  (Reading.step_renumbered (fun _ => 0) r line).symm

/-- The document of numbered lines, numbers aside, is the document of their texts. -/
theorem unnumbered_ofLines (lines : List NumberedLine) :
    (ofLines lines).unnumbered = ((lines.map (·.text)).foldl Reading.read {}).document := by
  have hfold : ∀ r : Reading, (lines.foldl Reading.step r).unnumbered =
      (lines.map (·.text)).foldl Reading.read r.unnumbered := by
    induction lines with
    | nil => intro r; rfl
    | cons line lines ih =>
      intro r
      rw [List.foldl_cons, ih, Reading.unnumbered_step, List.map_cons, List.foldl_cons]
  have h := congrArg Reading.document (hfold {})
  exact h

/-- The document of a text that is put together from lines, numbers aside. -/
theorem unnumbered_parse {text : String} {ls : List (List Char)} (htext : text.toList = unlines ls)
    (hls : ∀ l ∈ ls, IsBodyLine l) : (parse text).unnumbered = (ls.foldl Reading.read {}).document := by
  rw [parse, htext, Body.ofText_unlines hls, unnumbered_ofLines]
  have htexts : (ls.mapIdx fun i l => (⟨i + 1, l⟩ : NumberedLine)).map (·.text) = ls := by
    apply List.ext_getElem
    · simp
    · simp
  rw [htexts]

end Document

/-! ## The document of a description -/

namespace Spec

/-- A description whose text reads back: ids are words, no two nodes and no two groups share one, and no edge starts at a
word that makes its line something else. -/
structure IsLegible (spec : Spec) : Prop where
  nodes_nodup : (spec.nodes.map (·.id)).Nodup
  groups_nodup : (spec.groups.map (·.id)).Nodup
  node_word : ∀ n ∈ spec.nodes, IsWord n.id
  group_word : ∀ g ∈ spec.groups, IsWord g.id
  edge_word : ∀ e ∈ spec.edges, IsWord e.source ∧ IsWord e.target
  edge_source : ∀ e ∈ spec.edges, e.source ∉ lineKeywords

/-- A description every line of which is read as what it was written as; ids may repeat. -/
structure IsPrintable (spec : Spec) : Prop where
  node_word : ∀ n ∈ spec.nodes, IsWord n.id
  group_word : ∀ g ∈ spec.groups, IsWord g.id
  edge_word : ∀ e ∈ spec.edges, IsWord e.source ∧ IsWord e.target
  edge_source : ∀ e ∈ spec.edges, e.source ∉ lineKeywords

/-- What is legible can be printed. -/
theorem IsLegible.isPrintable {spec : Spec} (h : spec.IsLegible) : spec.IsPrintable :=
  ⟨h.node_word, h.group_word, h.edge_word, h.edge_source⟩

/-- The nodes in the order in which they are written: those outside every group, then the members of each group. -/
def placedNodes (spec : Spec) : List Node :=
  spec.nodes.filter (!spec.isGrouped ·) ++ spec.groups.flatMap fun g => spec.members g.id

/-- The group that a node is written in: its own, if it is listed. -/
def writtenGroup? (spec : Spec) (n : Node) : Option String := if spec.isGrouped n then n.group? else none

/-- The endpoints of edges that no node declares, in the order of their first references. -/
def danglingEnds (spec : Spec) : List String :=
  ((spec.edges.flatMap fun e => [e.source, e.target]).filter fun id => !spec.nodes.any (·.id == id)).eraseDups

/-- What the declaration of a node in a group reads as. -/
def Node.details (group? : Option String) (n : Node) : Document.Details :=
  ⟨Label.decode (Label.escape n.label), n.shape.normalized, group?⟩

/-- A node that is declared in a group. -/
def Node.declared (group? : Option String) (n : Node) : Document.Node := ⟨n.id, 0, some (n.details group?)⟩

@[simp] theorem Node.id_declared (group? : Option String) (n : Node) : (n.declared group?).id = n.id := rfl

/-- The declaration of a node. -/
def Node.declaration (n : Node) : Document.Declaration :=
  ⟨n.id, Label.decode (Label.escape n.label), n.shape.normalized, 0⟩

/-- What a group reads as. -/
def Group.written (g : Group) : Document.Group := ⟨g.id, Label.decode (Label.escape g.label), 0⟩

/-- What an edge reads as. -/
def Edge.written (e : Edge) : Document.Edge :=
  ⟨e.source, e.target, (writtenLabel? e.label?).map Label.decode, e.dashed, 0⟩

/-- A node that is known by reference only. -/
def mentioned (id : String) : Document.Node := ⟨id, 0, none⟩

/-- What the text of a description reads as, line numbers aside. -/
def document (spec : Spec) : Document where
  direction? := some spec.direction
  nodes := spec.placedNodes.map (fun n => n.declared (spec.writtenGroup? n)) ++ spec.danglingEnds.map mentioned
  edges := spec.edges.map (·.written)
  groups := spec.groups.map (·.written)
  declarations := spec.placedNodes.map (·.declaration)

/-- The members of distinct groups, group by group, are the nodes whose group is among them. -/
theorem flatMap_members_perm (spec : Spec) {gs : List Group} (hgs : (gs.map (·.id)).Nodup) :
    (gs.flatMap fun g => spec.members g.id).Perm
      (spec.nodes.filter fun n => n.group?.any fun x => gs.any (·.id == x)) := by
  induction gs with
  | nil =>
    have hnone : (spec.nodes.filter fun n => n.group?.any fun x => ([] : List Group).any (·.id == x)) = [] := by
      rw [List.filter_eq_nil_iff]
      intro n _
      cases n.group? <;> simp
    rw [hnone]
    exact List.Perm.refl _
  | cons g gs ih =>
    rw [List.map_cons, List.nodup_cons] at hgs
    have ih := ih hgs.2
    let wider : Node → Bool := fun n => n.group?.any fun x => (g :: gs).any (·.id == x)
    have hfirst : (spec.nodes.filter wider).filter (·.group? == some g.id) = spec.members g.id := by
      rw [List.filter_filter, members]
      apply List.filter_congr
      intro n _
      by_cases hn : n.group? = some g.id
      · simp [wider, hn]
      · simp [hn]
    have hrest : (spec.nodes.filter wider).filter (fun n => !(n.group? == some g.id)) =
        spec.nodes.filter fun n => n.group?.any fun x => gs.any (·.id == x) := by
      rw [List.filter_filter]
      apply List.filter_congr
      intro n _
      cases hn : n.group? with
      | none => simp [wider, hn]
      | some x =>
        by_cases hx : x = g.id
        · have hnot : gs.any (·.id == x) = false := by
            rw [List.any_eq_false]
            intro g' hg' heq
            exact hgs.1 (List.mem_map.2 ⟨g', hg', by rw [← hx]; simpa using heq⟩)
          simp [hx, hx ▸ hnot]
        · simp [wider, hn, beq_false_of_ne hx, beq_false_of_ne (Ne.symm hx)]
    have hsplit := List.filter_append_perm (·.group? == some g.id) (spec.nodes.filter wider)
    rw [hfirst, hrest] at hsplit
    rw [List.flatMap_cons]
    exact (ih.append_left _).trans hsplit

/-- Every node is written exactly once. -/
theorem placedNodes_perm (spec : Spec) (hgroups : (spec.groups.map (·.id)).Nodup) :
    spec.placedNodes.Perm spec.nodes := by
  have hsplit := List.filter_append_perm (fun n => !spec.isGrouped n) spec.nodes
  have hgrouped : (spec.nodes.filter fun n => !(!spec.isGrouped n)) =
      spec.nodes.filter fun n => n.group?.any fun x => spec.groups.any (·.id == x) := by
    apply List.filter_congr
    intro n _
    rw [Bool.not_not, isGrouped]
  rw [hgrouped] at hsplit
  exact ((spec.flatMap_members_perm hgroups).append_left _).trans hsplit

end Spec

/-! ## Reading line by line -/

namespace Document

/-- The header line sets the direction. -/
theorem read_header (direction : Direction) :
    ({} : Reading).read (headerLine direction).toList =
      { document := { direction? := some direction }, started := true } := by
  simp [Reading.read, Reading.step, classify_headerLine]

/-- The line of a node whose id is new adds a declared node to the innermost open group. -/
theorem read_node {r : Reading} {n : Spec.Node} (depth : Nat) (hid : IsWord n.id)
    (hnew : n.id ∉ r.document.nodes.map (·.id)) :
    r.read (indented depth n.line).toList =
      { r with
        started := true
        document := { r.document with
          nodes := r.document.nodes ++ [n.declared r.openGroups.head?]
          declarations := r.document.declarations ++ [n.declaration] } } := by
  have hany : r.document.nodes.any (·.id == n.id) = false := by
    rw [List.any_eq_false]
    intro m hm heq
    exact hnew (List.mem_map.2 ⟨m, hm, by simpa using heq⟩)
  simp [Reading.read, Reading.step, Spec.Node.line, classify_nodeLine hid, parse_nodeLine hid, addStatement,
    Statement.refs, Statement.groups, Statement.hops, NodeGroup.refs, noteRef, hany, detailsOf?, declarationOf?,
    Spec.Node.declared, Spec.Node.details, Spec.Node.declaration]

/-- The line that opens a group. -/
theorem read_groupOpen (r : Reading) {g : Spec.Group} (hid : IsWord g.id) :
    r.read (indented 1 (groupOpenLine g.id g.label)).toList =
      { r with
        openGroups := g.id :: r.openGroups
        document := { r.document with groups := r.document.groups ++ [g.written] } } := by
  simp [Reading.read, Reading.step, classify_groupOpenLine hid, groupOfTitle_groupTitle hid, Spec.Group.written]

/-- The line that closes a group. -/
theorem read_groupClose (r : Reading) :
    r.read (indented 1 groupCloseLine).toList = { r with openGroups := r.openGroups.tail } := by
  simp [Reading.read, Reading.step, classify_groupCloseLine]

/-- The nodes after one more reference without a declaration. -/
def mention (nodes : List Node) (id : String) : List Node :=
  if nodes.any (·.id == id) then nodes else nodes ++ [Spec.mentioned id]

/-- A reference without a bracket pair adds a node, if there is none yet. -/
theorem noteRef_bare (group? : Option String) (nodes : List Node) (id : String) (column : Nat) :
    noteRef group? 0 nodes ⟨id, none, column⟩ = mention nodes id := by
  have hkeep : (nodes.map fun n : Node =>
      if n.id == id then { n with details? := n.details?.or (detailsOf? group? ⟨id, none, column⟩) } else n) = nodes := by
    conv_rhs => rw [← List.map_id nodes]
    apply List.map_congr_left
    intro n _
    simp [detailsOf?]
  rw [noteRef, hkeep]
  rfl

/-- The line of an edge mentions its two ends. -/
theorem read_edge {r : Reading} {e : Spec.Edge} (hs : IsWord e.source) (ht : IsWord e.target)
    (hk : e.source ∉ lineKeywords) :
    r.read (indented 1 e.line).toList =
      { r with
        started := true
        document := { r.document with
          nodes := [e.source, e.target].foldl mention r.document.nodes
          edges := r.document.edges ++ [e.written] } } := by
  obtain ⟨i, k, n, hparse⟩ := parse_edgeLine hs ht e.label? e.dashed
  have hdashed : (Statement.arrowStyle e.dashed == Arrow.dashed) = e.dashed := by
    cases e.dashed <;> rfl
  simp [Reading.read, Reading.step, Spec.Edge.line, classify_edgeLine hs ht hk, hparse, addStatement,
    Statement.refs, Statement.groups, Statement.hops, NodeGroup.refs, noteRef_bare, edgesOfHop, declarationOf?,
    Spec.Edge.written, hdashed]

/-! ## Reading part by part -/

/-- The lines of nodes whose ids are new. -/
theorem read_nodes (depth : Nat) {ns : List Spec.Node} (hid : ∀ n ∈ ns, IsWord n.id) {r : Reading}
    (hstarted : r.started = true) (hnew : (r.document.nodes.map (·.id) ++ ns.map (·.id)).Nodup) :
    (ns.map fun n => (indented depth n.line).toList).foldl Reading.read r =
      { r with document := { r.document with
          nodes := r.document.nodes ++ ns.map (·.declared r.openGroups.head?)
          declarations := r.document.declarations ++ ns.map (·.declaration) } } := by
  induction ns generalizing r with
  | nil => simp
  | cons n ns ih =>
    have hn : n.id ∉ r.document.nodes.map (·.id) := fun h =>
      List.disjoint_of_nodup_append hnew h (by simp)
    rw [List.map_cons, List.foldl_cons, read_node depth (hid n (by simp)) hn,
      ih fun m hm => hid m (by simp [hm])]
    · simp [hstarted]
    · rfl
    · simpa using hnew

/-- The lines of one group: its opening, its members and its closing. -/
theorem read_group {spec : Spec} (hword : ∀ n ∈ spec.nodes, IsWord n.id) {g : Spec.Group} (hid : IsWord g.id)
    {r : Reading} (hstarted : r.started = true)
    (hnew : (r.document.nodes.map (·.id) ++ (spec.members g.id).map (·.id)).Nodup) :
    ((spec.groupLines g).map (·.toList)).foldl Reading.read r =
      { r with document := { r.document with
          nodes := r.document.nodes ++ (spec.members g.id).map (·.declared (some g.id))
          groups := r.document.groups ++ [g.written]
          declarations := r.document.declarations ++ (spec.members g.id).map (·.declaration) } } := by
  have hmembers : ∀ n ∈ spec.members g.id, IsWord n.id := fun n hn => hword n (List.mem_of_mem_filter hn)
  have hlines : (spec.groupLines g).map (·.toList) = (indented 1 (groupOpenLine g.id g.label)).toList ::
      (((spec.members g.id).map fun n => (indented 2 n.line).toList) ++ [(indented 1 groupCloseLine).toList]) := by
    simp [Spec.groupLines]
  rw [hlines, List.foldl_cons, read_groupOpen r hid, List.foldl_append, read_nodes 2 hmembers, List.foldl_cons,
    List.foldl_nil, read_groupClose]
  · rfl
  · exact hstarted
  · exact hnew

/-- The lines of groups, each with its members. -/
theorem read_groups {spec : Spec} (hword : ∀ n ∈ spec.nodes, IsWord n.id) {gs : List Spec.Group}
    (hid : ∀ g ∈ gs, IsWord g.id) {r : Reading} (hstarted : r.started = true)
    (hnew : (r.document.nodes.map (·.id) ++ (gs.flatMap fun g => spec.members g.id).map (·.id)).Nodup) :
    ((gs.flatMap spec.groupLines).map (·.toList)).foldl Reading.read r =
      { r with document := { r.document with
          nodes := r.document.nodes ++ gs.flatMap fun g => (spec.members g.id).map (·.declared (some g.id))
          groups := r.document.groups ++ gs.map (·.written)
          declarations := r.document.declarations ++ (gs.flatMap fun g => spec.members g.id).map (·.declaration) } } := by
  induction gs generalizing r with
  | nil => simp
  | cons g gs ih =>
    rw [List.flatMap_cons, List.map_append, ← List.append_assoc] at hnew
    rw [List.flatMap_cons, List.map_append, List.foldl_append,
      read_group hword (hid g (by simp)) hstarted (List.Nodup.of_append_left hnew),
      ih fun g' hg' => hid g' (by simp [hg'])]
    · simp
    · exact hstarted
    · simpa [Function.comp_def] using hnew

/-- Mentioning ids one after the other adds those that are new, each once. -/
theorem foldl_mention (ids : List String) (nodes : List Node) :
    ids.foldl mention nodes =
      nodes ++ ((ids.filter fun id => !nodes.any (·.id == id)).eraseDups).map Spec.mentioned := by
  induction ids generalizing nodes with
  | nil => simp
  | cons id ids ih =>
    rw [List.foldl_cons, ih, mention]
    by_cases hid : nodes.any (·.id == id) = true
    · simp [hid]
    · have hfilter : (ids.filter fun x => !(nodes ++ [Spec.mentioned id]).any (·.id == x)) =
          (ids.filter fun x => !nodes.any (·.id == x)).filter fun x => !x == id := by
        rw [List.filter_filter]
        apply List.filter_congr
        intro x _
        have hcomm : (id == x) = (x == id) := Bool.beq_comm
        simp [Spec.mentioned, hcomm, Bool.and_comm]
      rw [if_neg hid, hfilter, List.filter_cons_of_pos (by simpa using hid), List.eraseDups_cons]
      simp

/-- The lines of edges. -/
theorem read_edges {es : List Spec.Edge} (hword : ∀ e ∈ es, IsWord e.source ∧ IsWord e.target)
    (hk : ∀ e ∈ es, e.source ∉ lineKeywords) {r : Reading} (hstarted : r.started = true) :
    (es.map fun e => (indented 1 e.line).toList).foldl Reading.read r =
      { r with document := { r.document with
          nodes := (es.flatMap fun e => [e.source, e.target]).foldl mention r.document.nodes
          edges := r.document.edges ++ es.map (·.written) } } := by
  induction es generalizing r with
  | nil => simp
  | cons e es ih =>
    have he := hword e (by simp)
    rw [List.map_cons, List.foldl_cons, read_edge he.1 he.2 (hk e (by simp)),
      ih (fun e' he' => hword e' (by simp [he'])) fun e' he' => hk e' (by simp [he'])]
    · simp [hstarted]
    · rfl

end Document

namespace Spec

/-- The characters of the text of a description. -/
theorem toList_render (spec : Spec) : spec.render.toList = unlines (spec.toLines.map (·.toList)) := by
  have hjoin : ∀ ls : List String, (String.join (ls.map (· ++ "\n"))).toList = unlines (ls.map (·.toList)) := by
    intro ls
    rw [String.toList_join, unlines, List.flatMap_map, List.flatMap_map]
    simp
  exact hjoin _

/-- Every line of a printable description is a written line. -/
theorem IsPrintable.isWrittenLine {spec : Spec} (h : spec.IsPrintable) :
    ∀ l ∈ spec.toLines.map (·.toList), IsWrittenLine l := by
  intro l hl
  obtain ⟨line, hline, rfl⟩ := List.mem_map.1 hl
  simp only [toLines, List.cons_append, List.mem_cons, List.mem_append, List.mem_map, List.mem_flatMap,
    List.mem_filter] at hline
  rcases hline with rfl | (⟨n, hn, rfl⟩ | ⟨g, hg, hline⟩) | ⟨e, he, rfl⟩
  · exact isWrittenLine_headerLine _
  · exact isWrittenLine_nodeLine (h.node_word n hn.1) _ _ _
  · simp only [groupLines, List.cons_append, List.mem_cons, List.mem_append, List.mem_map, List.not_mem_nil,
      or_false] at hline
    rcases hline with rfl | ⟨n, hn, rfl⟩ | rfl
    · exact isWrittenLine_groupOpenLine (h.group_word g hg) _ _
    · exact isWrittenLine_nodeLine (h.node_word n (List.mem_of_mem_filter hn)) _ _ _
    · exact isWrittenLine_groupCloseLine
  · exact isWrittenLine_edgeLine (h.edge_word e he).1 (h.edge_word e he).2 _ _ _

/-- A node outside all groups is written in none. -/
theorem writtenGroup?_of_ungrouped {spec : Spec} {n : Node} (h : spec.isGrouped n = false) : spec.writtenGroup? n = none := by
  rw [writtenGroup?, h]
  rfl

/-- A member of a listed group is written in it. -/
theorem writtenGroup?_of_mem_members {spec : Spec} {g : Group} (hg : g ∈ spec.groups) {n : Node}
    (hn : n ∈ spec.members g.id) : spec.writtenGroup? n = some g.id := by
  have hgroup : n.group? = some g.id := by simpa using (List.mem_filter.1 hn).2
  have hgrouped : spec.isGrouped n = true := by
    rw [isGrouped, hgroup, Option.any_some, List.any_eq_true]
    exact ⟨g, hg, by simp⟩
  rw [writtenGroup?, if_pos hgrouped, hgroup]

/-- A node outside every group is written in none. -/
theorem map_declared_ungrouped (spec : Spec) :
    (spec.nodes.filter (!spec.isGrouped ·)).map (fun n => n.declared (spec.writtenGroup? n)) =
      (spec.nodes.filter (!spec.isGrouped ·)).map (·.declared none) := by
  apply List.map_congr_left
  intro n hn
  have hgrouped : spec.isGrouped n = false := by simpa using (List.mem_filter.1 hn).2
  rw [writtenGroup?_of_ungrouped hgrouped]

/-- The members of a listed group are written in it. -/
theorem map_declared_members {spec : Spec} {g : Group} (hg : g ∈ spec.groups) :
    (spec.members g.id).map (fun n => n.declared (spec.writtenGroup? n)) =
      (spec.members g.id).map (·.declared (some g.id)) := by
  apply List.map_congr_left
  intro n hn
  rw [writtenGroup?_of_mem_members hg hn]

/-- The text of a legible description reads as its document, line numbers aside. -/
theorem IsLegible.unnumbered_parse {spec : Spec} (h : spec.IsLegible) :
    (Document.parse spec.render).unnumbered = spec.document := by
  have hperm := spec.placedNodes_perm h.groups_nodup
  have hnodup : (spec.placedNodes.map (·.id)).Nodup := (hperm.map _).nodup_iff.2 h.nodes_nodup
  have hnodup' := hnodup
  rw [placedNodes, List.map_append] at hnodup'
  have hnodes : spec.placedNodes.map (fun n => n.declared (spec.writtenGroup? n)) =
      (spec.nodes.filter (!spec.isGrouped ·)).map (·.declared none) ++
        spec.groups.flatMap fun g => (spec.members g.id).map (·.declared (some g.id)) := by
    rw [placedNodes, List.map_append, map_declared_ungrouped, List.map_flatMap]
    congr 1
    exact List.flatMap_congr fun g hg => map_declared_members hg
  have hknown : ∀ id, (spec.placedNodes.map fun n => n.declared (spec.writtenGroup? n)).any (·.id == id) =
      spec.nodes.any (·.id == id) := by
    intro id
    rw [List.any_map]
    exact hperm.any_eq
  have hungrouped : ∀ n ∈ spec.nodes.filter (!spec.isGrouped ·), IsWord n.id := fun n hn =>
    h.node_word n (List.mem_of_mem_filter hn)
  rw [Document.unnumbered_parse spec.toList_render fun l hl => (h.isPrintable.isWrittenLine l hl).isBodyLine, toLines]
  simp only [List.cons_append, List.map_cons, List.map_append, List.map_map, List.foldl_cons, List.foldl_append]
  rw [Document.read_header]
  change ((spec.edges.map fun e => (indented 1 e.line).toList).foldl Document.Reading.read
    (((spec.groups.flatMap spec.groupLines).map (·.toList)).foldl Document.Reading.read
      (((spec.nodes.filter (!spec.isGrouped ·)).map fun n => (indented 1 n.line).toList).foldl Document.Reading.read
        _))).document = _
  rw [Document.read_nodes 1 hungrouped rfl (List.Nodup.of_append_left hnodup'),
    Document.read_groups h.node_word h.group_word rfl, Document.read_edges h.edge_word h.edge_source rfl]
  · simp only [List.head?_nil, List.nil_append, ← hnodes, Document.foldl_mention, hknown]
    simp [document, danglingEnds, placedNodes]
  · simpa [Function.comp_def] using hnodup'

/-! ## What the text of a description reads as -/

/-- The direction is read back. -/
theorem IsLegible.direction?_parse {spec : Spec} (h : spec.IsLegible) :
    (Document.parse spec.render).direction? = some spec.direction := by
  have hread := congrArg (·.direction?) h.unnumbered_parse
  simpa only [Document.unnumbered, document] using hread

/-- The nodes that the text of a description reads as. -/
theorem IsLegible.nodes_parse {spec : Spec} (h : spec.IsLegible) :
    (Document.parse spec.render).nodes.map (fun n => (n.id, n.isDeclared, n.label?, n.shape, n.group?)) =
      spec.placedNodes.map (fun n =>
        (n.id, true, some (Label.decode (Label.escape n.label)), n.shape.normalized, spec.writtenGroup? n)) ++
      spec.danglingEnds.map (fun id => (id, false, none, Shape.rectangle, none)) := by
  have hread := congrArg (fun d => d.nodes.map fun n => (n.id, n.isDeclared, n.label?, n.shape, n.group?))
    h.unnumbered_parse
  simpa [Document.unnumbered, document, Function.comp_def, Document.Node.isDeclared, Document.Node.label?,
    Document.Node.shape, Document.Node.group?, Node.declared, Node.details, mentioned] using hread

/-- The edges that the text of a description reads as. -/
theorem IsLegible.edges_parse {spec : Spec} (h : spec.IsLegible) :
    (Document.parse spec.render).edges.map (fun e => (e.source, e.target, e.dashed, e.label?)) =
      spec.edges.map (fun e => (e.source, e.target, e.dashed, (writtenLabel? e.label?).map Label.decode)) := by
  have hread := congrArg (fun d => d.edges.map fun e => (e.source, e.target, e.dashed, e.label?)) h.unnumbered_parse
  simpa [Document.unnumbered, document, Function.comp_def, Edge.written] using hread

/-- The groups that the text of a description reads as. -/
theorem IsLegible.groups_parse {spec : Spec} (h : spec.IsLegible) :
    (Document.parse spec.render).groups.map (fun g => (g.id, g.label)) =
      spec.groups.map (fun g => (g.id, Label.decode (Label.escape g.label))) := by
  have hread := congrArg (fun d => d.groups.map fun g => (g.id, g.label)) h.unnumbered_parse
  simpa [Document.unnumbered, document, Function.comp_def, Group.written] using hread

/-- The declarations that the text of a description reads as. -/
theorem IsLegible.declarations_parse {spec : Spec} (h : spec.IsLegible) :
    (Document.parse spec.render).declarations.map (fun d => (d.id, d.label, d.shape)) =
      spec.placedNodes.map (fun n => (n.id, Label.decode (Label.escape n.label), n.shape.normalized)) := by
  have hread := congrArg (fun d => d.declarations.map fun d => (d.id, d.label, d.shape)) h.unnumbered_parse
  simpa [Document.unnumbered, document, Function.comp_def, Node.declaration] using hread

end Spec

/-- Rendering and reading back. Whatever its labels are, the text of a legible description reads as the description: its
direction, its nodes as they are placed, each declared with its label in normal form, its shape as it can be written and
its group if that is listed, behind them the dangling ends of edges, known by reference only; its edges in order, whose
labels in normal form are absent if there is nothing to show; and its groups and declarations in order. -/
theorem Document.parse_render (spec : Spec) (h : spec.IsLegible) :
    let doc := Document.parse spec.render
    doc.direction? = some spec.direction ∧
    doc.nodes.map (fun n => (n.id, n.isDeclared, n.label?, n.shape, n.group?)) =
      spec.placedNodes.map (fun n =>
        (n.id, true, some (Label.decode (Label.escape n.label)), n.shape.normalized, spec.writtenGroup? n)) ++
      spec.danglingEnds.map (fun id => (id, false, none, Shape.rectangle, none)) ∧
    doc.edges.map (fun e => (e.source, e.target, e.dashed, e.label?)) =
      spec.edges.map (fun e => (e.source, e.target, e.dashed, (writtenLabel? e.label?).map Label.decode)) ∧
    doc.groups.map (fun g => (g.id, g.label)) =
      spec.groups.map (fun g => (g.id, Label.decode (Label.escape g.label))) ∧
    doc.declarations.map (fun d => (d.id, d.label, d.shape)) =
      spec.placedNodes.map (fun n => (n.id, Label.decode (Label.escape n.label), n.shape.normalized)) := by
  exact ⟨h.direction?_parse, h.nodes_parse, h.edges_parse, h.groups_parse, h.declarations_parse⟩

/-- A description whose labels hold everything that means something in diagram text. -/
def Spec.awkward : Spec where
  direction := .rightLeft
  nodes := [⟨"end", "```\n\"]; subgraph x", .hexagon, some "g"⟩, ⟨"style", " a --> b\r\nend ", .ellipse, some "lost"⟩]
  groups := [⟨"g", "%% [\"x\"]\r"⟩]
  edges := [⟨"end", "style", some "|yes\n-->|", false⟩, ⟨"b", "end", some "|", true⟩]

/-- It is read back with all of its labels, and the end that is not declared as a node without details. -/
theorem Document.parse_render_awkward :
    Spec.awkward.IsLegible ∧
    (Document.parse Spec.awkward.render).nodes.map (fun n => (n.id, n.isDeclared, n.label?, n.shape, n.group?)) =
      [("style", true, some "a --> b\nend", .circle, none), ("end", true, some "```\n\"]; subgraph x", .hexagon, some "g"),
        ("b", false, none, .rectangle, none)] ∧
    (Document.parse Spec.awkward.render).edges.map (fun e => (e.source, e.target, e.dashed, e.label?)) =
      [("end", "style", false, some "yes\n-->"), ("b", "end", true, none)] := by
  have h : Spec.awkward.IsLegible :=
    ⟨by decide, by decide, by decide, by decide, by decide, by decide⟩
  have hread := Document.parse_render Spec.awkward h
  exact ⟨h, hread.2.1.trans (by decide +kernel), hread.2.2.1.trans (by decide +kernel)⟩

end Whiteboard
