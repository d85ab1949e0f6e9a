import Whiteboard.Proofs.Canvas.Merge

/-!
# Canonical form

Merging a text into an empty canvas writes down what the text reads as. Main statement: doing so once is enough
(`mergedText_canonical`). The text that it gives is the text that it gives for that text, and it reads as the same nodes,
with the same shapes and in the same groups, and as the same edges.

The second description has the nodes of the first in the order in which they were written, and every label as it was read
back (`Spec.reread`). Neither shows in its text: the nodes of a group keep their order (`Spec.members_reread`), and a
label that was read is written again as it was written before (`Label.escape_decode_escape`), be there lone carriage
returns in it or not.
-/

namespace Whiteboard

open Text

/-! ## Documents as descriptions -/

/-- What a document says, as a description. -/
def Document.description (doc : Document) : Spec where
  direction := doc.direction?.getD .topDown
  nodes := doc.nodes.map Merge.addedNode
  groups := doc.groups.map fun g => ⟨g.id, g.label⟩
  edges := doc.edges.map fun e => ⟨e.source, e.target, e.label?, e.dashed⟩

/-- Merging into an empty canvas adds everything. -/
theorem merged_default (doc : Document) : merged {} doc = doc.description := by
  have hnodes : doc.nodes.filter (fun n => !(({} : Snapshot).nodeIds.contains n.id)) = doc.nodes :=
    List.filter_eq_self.2 fun _ _ => rfl
  have hedges : doc.edges.filter (fun e => !(({} : Snapshot).pairs.contains (e.source, e.target))) = doc.edges :=
    List.filter_eq_self.2 fun _ _ => rfl
  simp only [merged, Merge.nodes, Merge.edges, Merge.groups, hnodes, hedges, Document.description, List.filterMap_nil,
    List.filter_nil, List.map_nil, List.nil_append, List.append_nil]

/-- Line numbers do not matter. -/
theorem Document.description_unnumbered (doc : Document) : doc.unnumbered.description = doc.description := by
  simp only [description, unnumbered, List.map_map]
  rfl

namespace Spec

/-- A node as it is read back. -/
def Node.reread (spec : Spec) (n : Node) : Node :=
  ⟨n.id, Label.decode (Label.escape n.label), n.shape.normalized, spec.writtenGroup? n⟩

/-- A group as it is read back. -/
def Group.reread (g : Group) : Group := ⟨g.id, Label.decode (Label.escape g.label)⟩

/-- An edge as it is read back. -/
def Edge.reread (e : Edge) : Edge :=
  ⟨e.source, e.target, (writtenLabel? e.label?).map Label.decode, e.dashed⟩

/-- A description as its text is read back. -/
def reread (spec : Spec) : Spec where
  direction := spec.direction
  nodes := spec.placedNodes.map (·.reread spec)
  groups := spec.groups.map (·.reread)
  edges := spec.edges.map (·.reread)

/-- The text of a legible description without dangling ends is read back so. -/
theorem IsLegible.description_parse {spec : Spec} (h : spec.IsLegible) (hends : spec.danglingEnds = []) :
    (Document.parse spec.render).description = spec.reread := by
  rw [← Document.description_unnumbered, h.unnumbered_parse, document, hends, List.map_nil, List.append_nil]
  simp only [Document.description, List.map_map]
  rfl

/-! ## Groups that are read back -/

variable {spec : Spec}

/-- A node that is read back stands in a group if it did before. -/
theorem isGrouped_reread (n : Node) : spec.reread.isGrouped (n.reread spec) = spec.isGrouped n := by
  have hread : spec.reread.isGrouped (n.reread spec) =
      (spec.writtenGroup? n).any fun id => spec.groups.any (·.id == id) := by
    simp only [isGrouped, reread, Node.reread, List.any_map]
    rfl
  rw [hread, writtenGroup?]
  cases hgrouped : spec.isGrouped n with
  | false => rfl
  | true => exact hgrouped

/-- The nodes outside every group are written first, in their order. -/
theorem filter_placedNodes_ungrouped :
    spec.placedNodes.filter (!spec.isGrouped ·) = spec.nodes.filter (!spec.isGrouped ·) := by
  have hmembers : (spec.groups.flatMap fun g => spec.members g.id).filter (!spec.isGrouped ·) = [] := by
    rw [List.filter_eq_nil_iff]
    intro n hn
    obtain ⟨g, hg, hn⟩ := List.mem_flatMap.1 hn
    cases hgrouped : spec.isGrouped n with
    | true => simp
    | false =>
      have hsome := writtenGroup?_of_mem_members hg hn
      rw [writtenGroup?_of_ungrouped hgrouped] at hsome
      cases hsome
  rw [placedNodes, List.filter_append, hmembers, List.append_nil, List.filter_filter]
  simp only [Bool.and_self]

/-- The nodes that are written in a listed group are its members, in their order: group ids are distinct, so the members of all
other groups are left out. -/
theorem filter_placedNodes_group (hgroups : (spec.groups.map (·.id)).Nodup) {g : Group} (hg : g ∈ spec.groups) :
    spec.placedNodes.filter (spec.writtenGroup? · == some g.id) = spec.members g.id := by
  have hungrouped : (spec.nodes.filter (!spec.isGrouped ·)).filter (spec.writtenGroup? · == some g.id) = [] := by
    rw [List.filter_eq_nil_iff]
    intro n hn
    have hn := (List.mem_filter.1 hn).2
    rw [Bool.not_eq_true'] at hn
    simp [writtenGroup?_of_ungrouped hn]
  have hmembers : ∀ g' ∈ spec.groups, (spec.members g'.id).filter (spec.writtenGroup? · == some g.id) =
      if g'.id = g.id then spec.members g.id else [] := by
    intro g' hg'
    split
    · rename_i heq
      rw [← heq, List.filter_eq_self]
      intro n hn
      rw [writtenGroup?_of_mem_members hg' hn, beq_self_eq_true]
    · rename_i hne
      rw [List.filter_eq_nil_iff]
      intro n hn
      rw [writtenGroup?_of_mem_members hg' hn]
      simpa using hne
  obtain ⟨before, after, hsplit⟩ := List.append_of_mem hg
  rw [placedNodes, List.filter_append, hungrouped, List.nil_append, List.filter_flatMap, List.flatMap_congr hmembers, hsplit,
    List.flatMap_append, List.flatMap_cons, if_pos rfl]
  rw [hsplit, List.map_append, List.map_cons, List.nodup_append, List.nodup_cons] at hgroups
  obtain ⟨-, ⟨hafter, -⟩, hbefore⟩ := hgroups
  have hnone : ∀ gs : List Group, g.id ∉ gs.map (·.id) →
      (gs.flatMap fun g' => if g'.id = g.id then spec.members g.id else []) = [] := by
    intro gs hgs
    refine List.flatMap_eq_nil_iff.2 fun g' hg' => if_neg fun heq => hgs ?_
    exact List.mem_map.2 ⟨g', hg', heq⟩
  rw [hnone before fun hmem => hbefore _ hmem _ (by simp) rfl, hnone after hafter, List.nil_append, List.append_nil]

/-- The nodes outside every group are read back in their order. -/
theorem filter_reread_ungrouped : spec.reread.nodes.filter (!spec.reread.isGrouped ·) =
    (spec.nodes.filter (!spec.isGrouped ·)).map (·.reread spec) := by
  have hsame : (fun n => !spec.reread.isGrouped n) ∘ (·.reread spec) = fun n => !spec.isGrouped n :=
    funext fun n => congrArg (!·) (isGrouped_reread n)
  change (spec.placedNodes.map (·.reread spec)).filter (fun n => !spec.reread.isGrouped n) = _
  rw [List.filter_map, hsame, filter_placedNodes_ungrouped]

/-- The members of a group are read back in their order. -/
theorem members_reread (hgroups : (spec.groups.map (·.id)).Nodup) {g : Group} (hg : g ∈ spec.groups) :
    spec.reread.members g.id = (spec.members g.id).map (·.reread spec) := by
  rw [members, reread, List.filter_map, ← filter_placedNodes_group hgroups hg]
  rfl

/-! ## Labels that are written again -/

/-- A description whose labels were all read from a text. -/
structure HasReadLabels (spec : Spec) : Prop where
  node : ∀ n ∈ spec.nodes, Label.IsDecoded n.label.toList
  group : ∀ g ∈ spec.groups, Label.IsDecoded g.label.toList
  edge : ∀ e ∈ spec.edges, ∀ l ∈ e.label?, Label.IsDecoded l.toList ∧ '|' ∉ l.toList

/-- A node is written as before once it has been read back. -/
theorem Node.line_reread {n : Node} (h : Label.IsDecoded n.label.toList) : (n.reread spec).line = n.line := by
  simp only [line, nodeLine, reread, Label.escape_decode_escape h, Shape.opener_normalized, Shape.closer_normalized]

/-- A decoded label without pipes is written as before once it has been read back. -/
theorem writtenLabel?_reread {label? : Option String} (h : ∀ l ∈ label?, Label.IsDecoded l.toList ∧ '|' ∉ l.toList) :
    writtenLabel? ((writtenLabel? label?).map Label.decode) = writtenLabel? label? := by
  cases hl : writtenLabel? label? with
  | none => rfl
  | some written =>
    obtain ⟨label, rfl, rfl⟩ := exists_of_writtenLabel? hl
    obtain ⟨hdecoded, hpipe⟩ := h label rfl
    rw [writtenLabel?, Option.map_some] at hl
    rw [Option.map_some, writtenLabel?, Option.map_some, Label.sanitize_decode_sanitize hdecoded hpipe, hl]

/-- An edge is written as before once it has been read back. -/
theorem Edge.line_reread {e : Edge} (h : ∀ l ∈ e.label?, Label.IsDecoded l.toList ∧ '|' ∉ l.toList) :
    e.reread.line = e.line := by
  have hlabel := writtenLabel?_reread h
  rw [writtenLabel?, writtenLabel?] at hlabel
  simp only [line, edgeLine, reread, writtenLabel?, hlabel]

/-- Nodes that are read back are written as before. -/
theorem map_line_reread (hlabels : spec.HasReadLabels) (depth : Nat) {ns : List Node} (hns : ∀ n ∈ ns, n ∈ spec.nodes) :
    (ns.map (·.reread spec)).map (indented depth ·.line) = ns.map (indented depth ·.line) := by
  rw [List.map_map]
  refine List.map_congr_left fun n hn => ?_
  rw [Function.comp_apply, Node.line_reread (hlabels.node n (hns n hn))]

/-- So are groups, with their members. -/
theorem groupLines_reread (hgroups : (spec.groups.map (·.id)).Nodup) (hlabels : spec.HasReadLabels) {g : Group}
    (hg : g ∈ spec.groups) : spec.reread.groupLines g.reread = spec.groupLines g := by
  have hopen : groupOpenLine g.id (Label.decode (Label.escape g.label)) = groupOpenLine g.id g.label := by
    rw [groupOpenLine, Label.escape_decode_escape (hlabels.group g hg), groupOpenLine]
  have hmembers : ∀ n ∈ spec.members g.id, n ∈ spec.nodes := fun n hn => List.mem_of_mem_filter hn
  rw [groupLines, groupLines, Group.reread, hopen, members_reread hgroups hg, map_line_reread hlabels 2 hmembers]

/-- The text of a description whose labels were read does not change when it is read back and written again. -/
theorem toLines_reread (hgroups : (spec.groups.map (·.id)).Nodup) (hlabels : spec.HasReadLabels) :
    spec.reread.toLines = spec.toLines := by
  have hnodes : (spec.reread.nodes.filter (!spec.reread.isGrouped ·)).map (indented 1 ·.line) =
      (spec.nodes.filter (!spec.isGrouped ·)).map (indented 1 ·.line) := by
    rw [filter_reread_ungrouped, map_line_reread hlabels 1 fun n hn => List.mem_of_mem_filter hn]
  have hblocks : (spec.groups.map (·.reread)).flatMap spec.reread.groupLines = spec.groups.flatMap spec.groupLines := by
    rw [List.flatMap_map]
    exact List.flatMap_congr fun g hg => groupLines_reread hgroups hlabels hg
  have hedges : (spec.edges.map (·.reread)).map (indented 1 ·.line) = spec.edges.map (indented 1 ·.line) := by
    rw [List.map_map]
    refine List.map_congr_left fun e he => ?_
    rw [Function.comp_apply, Edge.line_reread (hlabels.edge e he)]
  rw [toLines, toLines, hnodes, ← hblocks, ← hedges]
  rfl

end Spec

/-! ## Merging into an empty canvas -/

/-- The labels of a description that was read from a text are labels that were read. -/
theorem Document.WellFormed.hasReadLabels {p : Char → Prop} {doc : Document} (h : doc.WellFormed p) :
    doc.description.HasReadLabels := by
  refine ⟨?_, ?_, ?_⟩
  · intro n hn
    obtain ⟨i, hi, rfl⟩ := List.mem_map.1 hn
    rw [Merge.addedNode]
    cases hl : i.label? with
    | none => exact (h.node i hi).id_word.isDecoded
    | some l => exact (h.label?_isLabel hi l hl).decoded
  · intro g hg
    obtain ⟨g', hg', rfl⟩ := List.mem_map.1 hg
    exact (h.group_label g' hg').decoded
  · intro e he l hl
    obtain ⟨e', he', rfl⟩ := List.mem_map.1 he
    have hlabel := h.edge_label e' he' l hl
    exact ⟨hlabel.decoded, fun hp => (hlabel.chars _ hp).2 rfl⟩

/-- An empty canvas has nothing that could be named badly. -/
theorem Snapshot.isNamed_default : ({} : Snapshot).IsNamed := ⟨List.nodup_nil, List.nodup_nil, nofun⟩

namespace Document

variable {p : Char → Prop} {doc : Document}

/-- The description of a document that can be written again is legible. -/
theorem WellFormed.isLegible (h : doc.WellFormed p) (hd : doc.IsWritable) : doc.description.IsLegible := by
  rw [← merged_default]
  exact isLegible_merged Snapshot.isNamed_default h hd

/-- It is written again as it was written. -/
theorem WellFormed.render_description (h : doc.WellFormed p) (hd : doc.IsWritable) :
    (parse doc.description.render).description.render = doc.description.render := by
  have hlegible := h.isLegible hd
  have hends : doc.description.danglingEnds = [] := by
    rw [← merged_default]
    exact danglingEnds_merged h
  rw [hlegible.description_parse hends, Spec.render, Spec.toLines_reread hlegible.groups_nodup h.hasReadLabels, ← Spec.render]

/-- It reads as the edges of the document. -/
theorem WellFormed.edges_parse_description (h : doc.WellFormed p) (hd : doc.IsWritable) :
    (parse doc.description.render).edges.map (fun e => (e.source, e.target, e.dashed)) =
      doc.edges.map (fun e => (e.source, e.target, e.dashed)) := by
  have hread := congrArg (List.map fun e => (e.1, e.2.1, e.2.2.1)) (h.isLegible hd).edges_parse
  rw [List.map_map, List.map_map, description, List.map_map] at hread
  exact hread

end Document

/-- Merging into an empty canvas gives a canonical form. For a text that can be written again, whatever else is in it, the
text that its merge gives is the same when it is merged in its turn; it reads as the same nodes, each with its shape and in
its group, and as the same edges in order, with their dashes. -/
theorem mergedText_canonical (text : String) (hd : (Document.parse text).IsWritable) :
    let d := Document.parse text
    let c := Document.parse (mergedText {} text)
    mergedText {} (mergedText {} text) = mergedText {} text ∧
    (∀ id, id ∈ c.nodeIds ↔ id ∈ d.nodeIds) ∧
    c.edges.map (fun e => (e.source, e.target, e.dashed)) = d.edges.map (fun e => (e.source, e.target, e.dashed)) ∧
    ∀ n ∈ d.nodes, ∃ k, c.node? n.id = some k ∧ k.shape = n.shape ∧ k.group? = n.group? := by
  intro d c
  have hdoc : d.WellFormed fun _ => True := Document.wellFormed_parse_any text
  have hmerge : ∀ text, mergedText {} text = (Document.parse text).description.render := by
    intro text
    rw [mergedText, merged_default]
  refine ⟨?_, ?_, ?_, ?_⟩
  · rw [hmerge (mergedText {} text), hmerge text]
    exact hdoc.render_description hd
  · intro id
    exact (Merge.nodeIds_parse_perm Snapshot.isNamed_default hdoc hd).mem_iff
  · have hedges := hdoc.edges_parse_description hd
    rw [← hmerge text] at hedges
    exact hedges
  · intro n hn
    obtain ⟨k, hk, -, hshape, hgroup⟩ := Merge.exists_parse_added Snapshot.isNamed_default hdoc hd hn nofun
    exact ⟨k, hk, hshape, hgroup⟩

/-- A fenced text with nested groups, lone carriage returns, a second declaration, lines that are skipped, an arrow of another
style and nodes that are never declared. -/
def messyText : String :=
  "Look:\n```\nflowchart LR\nsubgraph g[\"A\rB\"]\nsubgraph h\nx[1\r2] ==> y\nend\nz((\"#quot;z<br>\"))\nend\n" ++
  "end\nclick x\n?\ny -.->|p\rq| x & w\nx(3)\n```\n"

/-- What is read of it. -/
def messyDocument : Document where
  direction? := some .leftRight
  nodes := [⟨"x", 6, some ⟨"1\r2", .rectangle, some "h"⟩⟩, ⟨"y", 6, none⟩, ⟨"z", 8, some ⟨"\"z", .circle, some "g"⟩⟩,
    ⟨"w", 13, none⟩]
  edges := [⟨"x", "y", none, false, 6⟩, ⟨"y", "x", some "p\rq", true, 13⟩, ⟨"y", "w", some "p\rq", true, 13⟩]
  groups := [⟨"g", "A\rB", 4⟩, ⟨"h", "h", 5⟩]
  declarations := [⟨"x", "1\r2", .rectangle, 6⟩, ⟨"z", "\"z", .circle, 8⟩, ⟨"x", "3", .rounded, 14⟩]

/-- Merging it once puts it in the form that merging keeps. -/
theorem mergedText_canonical_messy :
    Document.parse messyText = messyDocument ∧ messyDocument.IsWritable ∧
    mergedText {} messyText =
      "flowchart LR\n    y[\"y\"]\n    w[\"w\"]\n    subgraph g[\"A<br/>B\"]\n        z((\"#quot;z\"))\n    end\n" ++
      "    subgraph h[\"h\"]\n        x[\"1<br/>2\"]\n    end\n    x --> y\n    y -.->|p<br/>q| x\n    y -.->|p<br/>q| w\n" ∧
    mergedText {} (mergedText {} messyText) = mergedText {} messyText ∧
    (Document.parse (mergedText {} messyText)).edges.map (fun e => (e.source, e.target, e.dashed)) =
      [("x", "y", false), ("y", "x", true), ("y", "w", true)] := by
  have hparse : Document.parse messyText = messyDocument := by decide +kernel
  have hd : messyDocument.IsWritable := ⟨by decide, by decide, by decide⟩
  obtain ⟨hagain, -, hedges, -⟩ := mergedText_canonical messyText (by rw [hparse]; exact hd)
  refine ⟨hparse, hd, ?_, hagain, ?_⟩
  · rw [mergedText, hparse]
    decide +kernel
  · rw [hedges, hparse]
    decide

end Whiteboard
