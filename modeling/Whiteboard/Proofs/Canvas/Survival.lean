import Whiteboard.Proofs.Canvas.Merge
import Whiteboard.Proofs.Diagram.Rereading
import Whiteboard.Proofs.Validation.Acceptance

/-!
# Accepted texts in a merge

The text of a merge is not checked again. Main statement: when an accepted text is merged into the canvas that it was
checked against, what is read afterwards are its nodes and the pairs of its edges (`Pipeline.mergedText_of_validate`), but
for two gaps that the checks leave open. An edge whose source is one of the `overlookedKeywords` is written on a line that
reads as a header, and a group whose id holds a line break is opened on two lines, of which the second reads as a node
(`Pipeline.mergedText_lost`).
-/

namespace Whiteboard

open Text

/-- The canvas names groups by semantic ids only. -/
theorem Snapshot.isSemanticId_of_mem_groups {scene : Scene} {diagramText? : Option String} {g : Snapshot.Group}
    (hg : g ∈ (Snapshot.ofCanvas scene diagramText?).groups) : isSemanticId g.id = true := by
  obtain ⟨c, hc, rfl⟩ := List.mem_map.1 hg
  exact (List.mem_filter.1 (List.mem_of_mem_filter hc)).2

/-- A semantic id breaks no line. -/
theorem newline_notMem_of_isSemanticId {id : String} (h : isSemanticId id = true) : '\n' ∉ id.toList := by
  intro hmem
  rw [isSemanticId] at h
  split at h
  · simp_all
  · rename_i c cs hcs
    rw [hcs] at hmem
    rw [Bool.and_eq_true, List.all_eq_true] at h
    rcases List.mem_cons.1 hmem with rfl | hmem
    · exact absurd h.1 (by decide)
    · exact absurd (h.2 _ hmem) (by decide)

/-- A merge is readable if the document leaves neither gap open. -/
theorem isReadable_merged {p : Char → Prop} {s : Snapshot} {doc : Document} (hdoc : doc.WellFormed p)
    (hcanvas : ∀ g ∈ s.groups, '\n' ∉ g.id.toList) (hgroups : ∀ g ∈ doc.groups, '\n' ∉ g.id.toList)
    (hedges : ∀ e ∈ doc.edges, e.source ∉ lineKeywords) : (merged s doc).IsReadable := by
  refine ⟨(isWord_merged hdoc).1, ?_, (isWord_merged hdoc).2, ?_⟩
  · intro g hg
    rcases List.mem_append.1 hg with hg | hg
    · obtain ⟨g', hg', rfl⟩ := List.mem_map.1 hg
      exact hgroups g' hg'
    · obtain ⟨g', hg', rfl⟩ := List.mem_map.1 hg
      exact hcanvas g' (List.mem_of_mem_filter hg')
  · intro e he
    obtain ⟨e', he', hsource, -⟩ := Merge.exists_edge_of_mem_edges he
    exact hsource ▸ hedges e' he'

/-- What the text of a readable merge reads as has the nodes of the document and joins the same pairs. -/
theorem parse_render_merged {p : Char → Prop} {s : Snapshot} {doc : Document} (hdoc : doc.WellFormed p)
    (h : (merged s doc).IsReadable) :
    (Document.parse (merged s doc).render).nodeIds.Perm doc.nodeIds ∧
    ∀ pair, pair ∈ (Document.parse (merged s doc).render).pairs ↔ pair ∈ doc.pairs := by
  obtain ⟨hids, hpairs⟩ := h.reading_render
  have hread : (Document.parse (merged s doc).render).WellFormed fun _ => True := Document.wellFormed_parse_any _
  refine ⟨(List.perm_ext_iff_of_nodup hread.nodes_nodup hdoc.nodes_nodup).2 fun id => ?_, fun pair => ?_⟩
  · rw [hids]
    constructor
    · rintro (⟨n, hn, rfl⟩ | ⟨e, he, hend⟩)
      · exact Merge.mem_nodeIds_of_mem_nodes hn
      · obtain ⟨e', he', hsource, htarget⟩ := Merge.exists_edge_of_mem_edges he
        obtain ⟨h1, h2⟩ := hdoc.edge_ends e' he'
        rcases hend with rfl | rfl
        · exact hsource ▸ h1
        · exact htarget ▸ h2
    · intro hid
      obtain ⟨n, hn, hname⟩ := List.mem_map.1 ((Merge.mem_map_id_nodes (s := s) id).2 hid)
      exact Or.inl ⟨n, hn, hname⟩
  · rw [hpairs]
    exact Merge.mem_pairs_edges pair

namespace Pipeline

/-- Accepted texts survive a merge. If a text passes the checks for a canvas, no edge of it starts at an overlooked keyword
and no group id of it breaks a line, then what the text of the merge reads as has the nodes of the text, each once, and
joins the same pairs, whatever else is on the canvas. -/
theorem mergedText_of_validate (scene : Scene) (diagramText? : Option String) (text : String)
    (warnings : List Lint.Violation)
    (h : (forMode {} .incremental (LiveIds.ofScene scene)).validate text = .ok warnings)
    (hsource : ∀ e ∈ (Document.parse text).edges, e.source ∉ overlookedKeywords)
    (hgroup : ∀ g ∈ (Document.parse text).groups, '\n' ∉ g.id.toList) :
    let d := Document.parse text
    let m := Document.parse (mergedText (Snapshot.ofCanvas scene diagramText?) text)
    m.nodeIds.Perm d.nodeIds ∧ ∀ pair, pair ∈ m.pairs ↔ pair ∈ d.pairs := by
  intro d m
  have hdoc : d.WellFormed fun _ => True := Document.wellFormed_parse_any text
  have hedges : ∀ e ∈ d.edges, e.source ∉ lineKeywords := fun e he =>
    notMem_lineKeywords_of_validate h (hdoc.edge_ends e he).1 (hsource e he)
  have hcanvas : ∀ g ∈ (Snapshot.ofCanvas scene diagramText?).groups, '\n' ∉ g.id.toList := fun g hg =>
    newline_notMem_of_isSemanticId (Snapshot.isSemanticId_of_mem_groups hg)
  exact parse_render_merged hdoc (isReadable_merged hdoc hcanvas hgroup hedges)

/-- A canvas with two nodes in a container. -/
def boxedScene : Scene where
  elements := [
    ⟨"k", .rectangle, { x := 0, y := 0, width := 400, height := 300 }, [], []⟩,
    ⟨"a", .ellipse, { x := 40, y := 40, width := 160, height := 80 }, [], []⟩,
    ⟨"z", .ellipse, { x := 240, y := 40, width := 160, height := 80 }, [], []⟩]

/-- A text that keeps one of them, puts the others in a group whose name is no word, and leads to an overlooked keyword. -/
def boxedText : String := "flowchart LR\nsubgraph a box\na & b --> c -.-> C4Component\nend\n"

/-- The merged text has the nodes and the edges of the accepted one, the keyword among them. -/
theorem mergedText_of_validate_boxed :
    (forMode {} .incremental (LiveIds.ofScene boxedScene)).validate boxedText = .ok [] ∧
    (∀ e ∈ (Document.parse boxedText).edges, e.source ∉ overlookedKeywords) ∧
    (∀ g ∈ (Document.parse boxedText).groups, '\n' ∉ g.id.toList) ∧
    (Document.parse (mergedText (Snapshot.ofCanvas boxedScene none) boxedText)).nodeIds.Perm
      ["a", "b", "c", "C4Component"] ∧
    ∀ pair, pair ∈ (Document.parse (mergedText (Snapshot.ofCanvas boxedScene none) boxedText)).pairs ↔
      pair ∈ [("a", "c"), ("b", "c"), ("c", "C4Component")] := by
  have h : (forMode {} .incremental (LiveIds.ofScene boxedScene)).validate boxedText = .ok [] := by decide +kernel
  have hsource : ∀ e ∈ (Document.parse boxedText).edges, e.source ∉ overlookedKeywords := by decide +kernel
  have hgroup : ∀ g ∈ (Document.parse boxedText).groups, '\n' ∉ g.id.toList := by decide +kernel
  have hids : (Document.parse boxedText).nodeIds = ["a", "b", "c", "C4Component"] := by decide +kernel
  have hpairs : (Document.parse boxedText).pairs = [("a", "c"), ("b", "c"), ("c", "C4Component")] := by decide +kernel
  have hmerge := mergedText_of_validate boxedScene none boxedText [] h hsource hgroup
  rw [← hids, ← hpairs]
  exact ⟨h, hsource, hgroup, hmerge⟩

/-- A text with an overlooked keyword at the start of an edge, although not at the start of a line. -/
def gatheredText : String := "flowchart TD\n    a & C4Container --> b\n"

/-- A text with a group whose id holds a line break. -/
def brokenTitleText : String := "flowchart TD\n    subgraph g<br/>x\n        a\n    end\n    a --> b\n"

/-- Both gaps are there: the first text is accepted and loses an edge even on an empty canvas, and the second one is accepted
and gains a node. -/
theorem mergedText_lost :
    ((forMode {} .incremental (LiveIds.ofScene {})).validate gatheredText = .ok [] ∧
      (Document.parse gatheredText).pairs = [("a", "b"), ("C4Container", "b")] ∧
      (Document.parse (mergedText (Snapshot.ofCanvas {} none) gatheredText)).pairs = [("a", "b")]) ∧
    (forMode {} .incremental (LiveIds.ofScene {})).validate brokenTitleText = .ok [] ∧
      (Document.parse brokenTitleText).nodeIds = ["a", "b"] ∧
      (Document.parse (mergedText (Snapshot.ofCanvas {} none) brokenTitleText)).nodeIds = ["a", "b", "x"] := by
  decide +kernel

end Pipeline

end Whiteboard
