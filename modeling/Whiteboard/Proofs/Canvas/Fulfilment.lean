import Whiteboard.Proofs.Canvas.Realisation
import Whiteboard.Proofs.Validation.Pipeline

/-!
# A canvas that holds all of its text

Main statement: after a text has taken the place of what was on the canvas, every node of it has a shape with its id and
its label, and every edge an arrow of its own, with its label, between its two ends (`Applier.holds_of_replace`).

Nodes, groups, edges and texts take their ids from one namespace, which no check of a text looks at as a whole. So the
statement is about texts whose names are kept apart, and there are accepted texts of which a part is lost where they are
not: where a node has the id of a group, or the numbered variant of it that the container of a repeated group gets; where
the id that is due to a text is taken; and where a group without members has the id of an arrow
(`Applier.replace_loses`).
-/

namespace Whiteboard

open Whiteboard.Text

/-- A scene holds all of a document: every node has a shape with its id and its label, or its id where it has none, and
every edge has an arrow of its own, with its label, that is bound to the shapes at its two ends. -/
structure Scene.Holds (scene : Scene) (doc : Document) : Prop where
  nodes : ∀ n ∈ doc.nodes, (∃ e ∈ scene.elements, e.isShape = true ∧ e.id = n.id) ∧
    scene.boundText? n.id = some (n.label?.getD n.id)
  edges : ∃ arrows, arrows ⊆ scene.elements ∧ (arrows.map (·.id)).Nodup ∧
    List.Forall₂ (fun (e : Document.Edge) (a : Element) =>
      a.ends? = some (e.source, e.target) ∧ scene.boundText? a.id = e.label?) doc.edges arrows

/-- Every edge of a document that a scene holds has an arrow. -/
theorem Scene.Holds.exists_arrow {scene : Scene} {doc : Document} (h : scene.Holds doc) {e : Document.Edge}
    (he : e ∈ doc.edges) :
    ∃ a ∈ scene.elements, a.ends? = some (e.source, e.target) ∧ scene.boundText? a.id = e.label? := by
  obtain ⟨arrows, hmem, -, hpaired⟩ := h.edges
  obtain ⟨i, hi, rfl⟩ := List.getElem_of_mem he
  have hj : i < arrows.length := hpaired.length_eq ▸ hi
  exact ⟨arrows[i], hmem (List.getElem_mem hj), (List.forall₂_iff_get.1 hpaired).2 i hi hj⟩

/-- The edges of a skeleton join what the edges of the document join, and have their labels. -/
theorem Skeleton.map_labels_ofDocument {doc : Document} {edgeIds : List String} (h : edgeIds.length = doc.pairs.length) :
    (ofDocument doc edgeIds).edges.map (fun e => ((e.source, e.target), e.label?)) =
      doc.edges.map fun e => ((e.source, e.target), e.label?) := by
  rw [Document.pairs, List.length_map] at h
  have hedges : (doc.edges.zip edgeIds).map Prod.fst = doc.edges := List.map_fst_zip (Nat.le_of_eq h.symm)
  conv_rhs => rw [← hedges, List.map_map]
  rw [ofDocument, List.map_map]
  rfl

/-- There is no label for an id that is neither that of a group nor that of a node. -/
theorem Apply.labelOf?_eq_none {doc : Document} {id : String} (hgroup : id ∉ doc.groupIds) (hnode : id ∉ doc.nodeIds) :
    labelOf? doc id = none := by
  have hgroups : doc.groups.reverse.find? (·.id == id) = none := by
    rw [List.find?_eq_none]
    intro g hg heq
    exact hgroup (List.mem_map.2 ⟨g, List.mem_reverse.1 hg, beq_iff_eq.1 heq⟩)
  have hnodes : doc.node? id = none := by
    rw [Document.node?, List.find?_eq_none]
    intro n hn heq
    exact hnode (List.mem_map.2 ⟨n, hn, beq_iff_eq.1 heq⟩)
  rw [labelOf?, hgroups, hnodes]
  rfl

/-- A text that takes the place of what was on the canvas is put there as it is. -/
theorem Applier.elementsOf_of_replace {convert : Skeleton → List Element} {records : RecordStore σ} {key : String}
    {now : Nat} {store : Store} {state : σ} {text : String} {applied : Applied σ}
    (h : Applier.apply ⟨convert, records, key, .replaceCanvas⟩ now store state text = .ok applied) :
    ∃ made, Apply.elementsOf convert store.canvas.scene.viewport (Document.parse text) = .ok made ∧
      applied.store.canvas.scene.elements = made.elements := by
  obtain ⟨made, hmade, h⟩ := exists_of_bind_eq_ok h
  obtain ⟨kept, -, h⟩ := exists_of_bind_eq_ok h
  cases h
  exact ⟨made, hmade, rfl⟩

namespace Layout.Shows

open Whiteboard.Convert

variable {c : Layout} {doc : Document} {edgeIds : List String} {name : Nat → String} {scene : Scene} {p : Char → Prop}

/-- Every shape and every arrow is on the canvas, as it is shown. -/
theorem exists_mem_elements {s : Skeleton} (h : c.Shows s name doc scene) :
    ∃ dx dy, ∀ f ∈ c.figures s name, Apply.shown doc dx dy f.main ∈ scene.elements := by
  obtain ⟨dx, dy, helements⟩ := h.elements
  refine ⟨dx, dy, fun f hf => ?_⟩
  rw [helements]
  exact List.mem_map.2 ⟨f.main, (c.mem_convert_iff s).2 ⟨f, hf, .inl rfl⟩, rfl⟩

/-- Every node has a shape of its own, and the text that it is made with is the id of the node. -/
theorem exists_shape (h : c.Shows (Skeleton.ofDocument doc edgeIds) name doc scene) {n : Document.Node}
    (hn : n ∈ doc.nodes) :
    ∃ f ∈ c.shapeFigures (Skeleton.ofDocument doc edgeIds) name, f.main.id = n.id ∧ f.label? = some n.id := by
  have hplaced : n.id ∈ c.shapeIds (Skeleton.ofDocument doc edgeIds) := by
    refine List.mem_append_right _ ((c.map_id_placed_perm _).mem_iff.2 ?_)
    rw [Skeleton.map_id_nodes_ofDocument]
    exact List.mem_map.2 ⟨n, hn, rfl⟩
  rw [← h.naming.map_id_shapes_arrows.1] at hplaced
  obtain ⟨f, hf, hid⟩ := List.mem_map.1 hplaced
  have hlabel : f.label? ∈ (c.shapeIds (Skeleton.ofDocument doc edgeIds)).map some := by
    rw [← c.map_label?_shapeFigures _ name]
    exact List.mem_map.2 ⟨f, hf, rfl⟩
  obtain ⟨own, -, hown⟩ := List.mem_map.1 hlabel
  have hsame : f.main.id = own := by rw [h.naming.id_shape f hf, ← hown, Option.getD_some]
  exact ⟨f, hf, hid, by rw [← hown, ← hsame, hid]⟩

/-- What is shown of the nodes of a document, if no group has the id of one. -/
theorem holds_nodes (h : c.Shows (Skeleton.ofDocument doc edgeIds) name doc scene) (hdoc : doc.WellFormed p)
    (hdisjoint : ∀ g ∈ doc.groupIds, g ∉ doc.nodeIds) :
    ∀ n ∈ doc.nodes, (∃ e ∈ scene.elements, e.isShape = true ∧ e.id = n.id) ∧
      scene.boundText? n.id = some (n.label?.getD n.id) := by
  intro n hn
  obtain ⟨f, hf, hid, hlabel⟩ := h.exists_shape hn
  have hfigure : f ∈ c.figures (Skeleton.ofDocument doc edgeIds) name := List.mem_append_left _ hf
  obtain ⟨dx, dy, helements⟩ := h.exists_mem_elements
  refine ⟨⟨Apply.shown doc dx dy f.main, helements f hfigure, ?_, ?_⟩, ?_⟩
  · rw [Apply.isShape_shown]
    exact c.isShape_shapeFigures _ hf
  · rw [Apply.id_shown, hid]
  · have htext := h.boundText? hfigure
    rw [hid, hlabel, Apply.labelOf?_node hdisjoint (Document.node?_of_mem hdoc.nodes_nodup hn)] at htext
    exact htext

/-- The ids of the arrows are neither those of shapes nor equal to one another. -/
theorem arrowIds_nodup {s : Skeleton} (hs : s.IsSound) :
    (c.arrowIds s).Nodup ∧ ∀ id ∈ c.arrowIds s, id ∉ s.nodes.map (·.id) := by
  have hnodup : (c.shapeIds s ++ c.arrowIds s).Nodup := ownerIds_nodup hs
  refine ⟨List.Nodup.of_append_right hnodup, fun id harrow hnode => ?_⟩
  have hshape : id ∈ c.shapeIds s := List.mem_append_right _ ((c.map_id_placed_perm s).mem_iff.2 hnode)
  exact List.disjoint_of_nodup_append hnodup hshape harrow

/-- The text of an arrow is the label of its edge, if no arrow has the id of a group. -/
theorem boundText?_arrow (h : c.Shows (Skeleton.ofDocument doc edgeIds) name doc scene)
    (harrows : ∀ id ∈ c.arrowIds (Skeleton.ofDocument doc edgeIds), id ∉ doc.groupIds) {f : Figure}
    (hf : f ∈ c.arrowFigures (Skeleton.ofDocument doc edgeIds) name) : scene.boundText? f.main.id = f.label? := by
  have hid : f.main.id ∈ c.arrowIds (Skeleton.ofDocument doc edgeIds) := by
    rw [← h.naming.map_id_shapes_arrows.2]
    exact List.mem_map.2 ⟨f, hf, rfl⟩
  have hnode : f.main.id ∉ doc.nodeIds := by
    rw [← Skeleton.map_id_nodes_ofDocument doc edgeIds]
    exact (arrowIds_nodup h.sound).2 _ hid
  rw [h.boundText? (List.mem_append_right _ hf), Apply.labelOf?_eq_none (harrows _ hid) hnode]
  exact Option.map_id'

/-- What is shown of the edges of a document, if no arrow has the id of a group. The edges of the document and the arrows are
compared over the edges that the arrows were made from. -/
theorem holds_edges (h : c.Shows (Skeleton.ofDocument doc edgeIds) name doc scene)
    (hlength : edgeIds.length = doc.pairs.length)
    (harrows : ∀ id ∈ c.arrowIds (Skeleton.ofDocument doc edgeIds), id ∉ doc.groupIds) :
    ∃ arrows, arrows ⊆ scene.elements ∧ (arrows.map (·.id)).Nodup ∧
      List.Forall₂ (fun (e : Document.Edge) (a : Element) =>
        a.ends? = some (e.source, e.target) ∧ scene.boundText? a.id = e.label?) doc.edges arrows := by
  obtain ⟨dx, dy, helements⟩ := h.exists_mem_elements
  refine ⟨(c.arrowFigures (Skeleton.ofDocument doc edgeIds) name).map fun f => Apply.shown doc dx dy f.main, ?_, ?_, ?_⟩
  · intro e he
    obtain ⟨f, hf, rfl⟩ := List.mem_map.1 he
    exact helements f (List.mem_append_right _ hf)
  · rw [List.map_map]
    simp only [Function.comp_def, Apply.id_shown]
    rw [h.naming.map_id_shapes_arrows.2]
    exact (arrowIds_nodup h.sound).1
  · rw [← List.forall₂_map_left_iff (f := fun e : Document.Edge => ((e.source, e.target), e.label?))
      (R := fun k (a : Element) => a.ends? = some k.1 ∧ scene.boundText? a.id = k.2),
      ← Skeleton.map_labels_ofDocument hlength, ← map_edge_arrows_of_isSound (c := c) h.sound, arrowFigures, List.map_map,
      List.map_map, List.forall₂_map_left_iff, List.forall₂_map_right_iff, List.forall₂_same]
    rintro ⟨k, e⟩ harrow
    obtain ⟨hsource, htarget⟩ := ends_arrows h.naming.id_shape harrow
    refine ⟨?_, ?_⟩
    · simp only [Function.comp_apply, Apply.ends?_shown]
      rw [← hsource, ← htarget]
      rfl
    · simp only [Function.comp_apply, Apply.id_shown]
      exact h.boundText?_arrow harrows (List.mem_map.2 ⟨(k, e), harrow, rfl⟩)

end Layout.Shows

section

open Whiteboard.Remap

/-- A canvas that is replaced holds all of its text. Whatever text takes the place of whatever was on the canvas: if that
succeeds, every node has a shape with its id and its label, and every edge an arrow of its own, with its label, between its
two ends. This is so if the groups of the text have distinct ids, none of them that of a node; if no shape and no arrow gets
the id that is due to the text of another; if no arrow gets the id of a group; and if the elements are made with ids of
their own. -/
theorem Applier.holds_of_replace {records : RecordStore σ} {state : σ} {store : Store} {applied : Applied σ} (c : Layout)
    (fresh : Nat → String) (key : String) (now : Nat) (text : String) (edgeIds : List String)
    (happly : Applier.apply ⟨c.convert fresh, records, key, .replaceCanvas⟩ now store state text = .ok applied)
    (hgroups : (Document.parse text).groupIds.Nodup)
    (hdisjoint : ∀ g ∈ (Document.parse text).groupIds, g ∉ (Document.parse text).nodeIds)
    (hedges : allocateEdgeIds [] (Document.parse text).pairs = .ok edgeIds)
    (htexts : ∀ id ∈ c.ownerIds (Skeleton.ofDocument (Document.parse text) edgeIds),
      textPrefix ++ id ∉ c.ownerIds (Skeleton.ofDocument (Document.parse text) edgeIds))
    (harrows : ∀ id ∈ c.arrowIds (Skeleton.ofDocument (Document.parse text) edgeIds),
      id ∉ (Document.parse text).groupIds)
    (hfresh : IsSupply (Skeleton.ofDocument (Document.parse text) edgeIds) fresh) :
    applied.store.canvas.scene.Holds (Document.parse text) := by
  obtain ⟨made, hmade, helements⟩ := Applier.elementsOf_of_replace happly
  have hdoc := Document.wellFormed_parse_any text
  have hs : (Skeleton.ofDocument (Document.parse text) edgeIds).IsSound :=
    Skeleton.isSound_ofDocument hdoc hgroups hdisjoint
  obtain ⟨name, hshows⟩ := Apply.exists_shows hmade helements hedges hs hfresh htexts
  exact ⟨hshows.holds_nodes hdoc hdisjoint, hshows.holds_edges (allocateEdgeIds_spec hedges).1 harrows⟩

/-- A text with a group, a node that is called like the mark of a text, and two edges side by side. -/
def teamText : String :=
  "flowchart TD\n    text_z\n    subgraph g[Team]\n        a[\"Ann\"]\n    end\n    a --> text\n    a -->|twice| text\n"

/-- What that reads as. -/
def teamDocument : Document where
  direction? := some .topDown
  nodes := [⟨"text_z", 2, none⟩, ⟨"a", 4, some ⟨"Ann", .rectangle, some "g"⟩⟩, ⟨"text", 6, none⟩]
  edges := [⟨"a", "text", none, false, 6⟩, ⟨"a", "text", some "twice", false, 7⟩]
  groups := [⟨"g", "Team", 3⟩]
  declarations := [⟨"a", "Ann", .rectangle, 4⟩]

/-- The text of the team is read as the document of the team. -/
theorem parse_teamText : Document.parse teamText = teamDocument := by
  decide +kernel

/-- All of it is on the canvas afterwards. -/
theorem Applier.holds_of_replace_team :
    let edgeIds := ["a_text", "a_text_2"]
    let doc := Document.parse teamText
    let s := Skeleton.ofDocument doc edgeIds
    let c : Layout := {}
    doc.groupIds.Nodup ∧ (∀ g ∈ doc.groupIds, g ∉ doc.nodeIds) ∧ allocateEdgeIds [] doc.pairs = .ok edgeIds ∧
    (∀ id ∈ c.ownerIds s, textPrefix ++ id ∉ c.ownerIds s) ∧ (∀ id ∈ c.arrowIds s, id ∉ doc.groupIds) ∧
    IsSupply s numberedId ∧
    ∃ applied,
      Applier.apply ⟨c.convert numberedId, RecordStore.memory, "sketch", .replaceCanvas⟩ 0 sketchStore [] teamText =
        .ok applied ∧
      applied.store.canvas.scene.Holds doc := by
  intro edgeIds doc s c
  have hread : doc = teamDocument := parse_teamText
  have hgroups : doc.groupIds.Nodup := by rw [hread]; decide +kernel
  have hdisjoint : ∀ g ∈ doc.groupIds, g ∉ doc.nodeIds := by rw [hread]; decide +kernel
  have hedges : allocateEdgeIds [] doc.pairs = .ok edgeIds := by rw [hread]; decide +kernel
  have hnodes : doc.nodes ≠ [] := by rw [hread]; exact List.cons_ne_nil _ _
  have hskeleton : s = Skeleton.ofDocument teamDocument edgeIds := congrArg (Skeleton.ofDocument · edgeIds) hread
  have hsorted := Layout.entries_of_pairwise (Skeleton.ofDocument teamDocument edgeIds) (by decide +kernel)
  have htexts : ∀ id ∈ c.ownerIds s, textPrefix ++ id ∉ c.ownerIds s := by
    rw [hskeleton]
    simp only [Layout.ownerIds, Layout.shapeIds, Layout.arrowIds, Layout.containers, Layout.placed, hsorted]
    decide +kernel
  have harrows : ∀ id ∈ c.arrowIds s, id ∉ doc.groupIds := by
    rw [hskeleton, hread]
    simp only [Layout.shapeIds, Layout.arrowIds, Layout.containers, Layout.placed, hsorted]
    decide +kernel
  have hsupply : IsSupply s numberedId := isSupply_numberedId (by rw [hskeleton]; decide +kernel) 0
  obtain ⟨applied, happly, -⟩ := Applier.exists_apply_eq_ok c numberedId RecordStore.memory "sketch" .replaceCanvas 0
    sketchStore [] teamText hnodes hedges fun _ => ⟨_, rfl⟩
  exact ⟨hgroups, hdisjoint, hedges, htexts, harrows, hsupply, applied, happly,
    Applier.holds_of_replace c numberedId "sketch" 0 teamText edgeIds happly hgroups hdisjoint hedges htexts harrows hsupply⟩

/-! ## Texts of which a part is lost -/

/-- A text that is accepted, and that an empty canvas does not hold after it was put there. -/
def IsLost (text : String) : Prop :=
  (Pipeline.forMode {} .replaceCanvas {}).validate text = .ok [] ∧ (Document.parse text).nodes ≠ [] ∧
  ∃ applied, Applier.apply ⟨({} : Layout).convert numberedId, RecordStore.memory, "sketch", .replaceCanvas⟩ 0 {} [] text =
      .ok applied ∧
    ¬ applied.store.canvas.scene.Holds (Document.parse text)

/-- The elements that are made for a document, with their ids. -/
def namedElements (doc : Document) (edgeIds : List String) : List Element :=
  let s := Skeleton.ofDocument doc edgeIds
  (remap (({} : Layout).convert numberedId s) s.intended).elements

/-- The label that elements show for an id, once the labels of a document are put in. -/
def shownLabel? (doc : Document) (es : List Element) (id : String) : Option String :=
  (es.find? (·.container? == some id)).bind fun e => (Apply.relabel doc e).text?

/-- Moving elements changes no label. -/
theorem boundText?_map_shown {scene : Scene} {doc : Document} {dx dy : Float32} {es : List Element}
    (h : scene.elements = es.map (Apply.shown doc dx dy)) (id : String) :
    scene.boundText? id = shownLabel? doc es id := by
  have hcontainer : ((·.container? == some id) ∘ Apply.shown doc dx dy : Element → Bool) = (·.container? == some id) := by
    funext e
    simp
  rw [Scene.boundText?, h, List.find?_map, hcontainer, Option.bind_map]
  rfl

/-- A text that is accepted, what it reads as and the ids that its edges get, where the elements that are made for that show
another label for a node, or have no arrow with its label for an edge. -/
structure LostText where
  text : String
  doc : Document
  edgeIds : List String
  reads : Document.parse text = doc
  quiet : Lint.violations {} text = []
  ids_ok : (Ids.checkDocument { checkExisting := false } doc).isOk = true
  grammatical : grammarFault? text = none
  nonempty : doc.nodes ≠ []
  allocated : allocateEdgeIds [] doc.pairs = .ok edgeIds
  lost : (∃ n ∈ doc.nodes, shownLabel? doc (namedElements doc edgeIds) n.id ≠ some (n.label?.getD n.id)) ∨
    ∃ e ∈ doc.edges, ∀ a ∈ namedElements doc edgeIds, a.ends? = some (e.source, e.target) →
      shownLabel? doc (namedElements doc edgeIds) a.id ≠ e.label?

/-- Such a text is lost. -/
theorem LostText.isLost (t : LostText) : IsLost t.text := by
  obtain ⟨text, doc, edgeIds, hread, hlint, hids, hgrammar, hnodes, hedges, hmade⟩ := t
  subst hread
  obtain ⟨applied, happly, -⟩ := Applier.exists_apply_eq_ok {} numberedId RecordStore.memory "sketch" .replaceCanvas 0
    {} [] text hnodes hedges fun _ => ⟨_, rfl⟩
  refine ⟨Pipeline.validate_eq_ok_nil hlint hids hgrammar, hnodes, applied, happly, fun hholds => ?_⟩
  obtain ⟨made, hmaking, hscene⟩ := Applier.elementsOf_of_replace happly
  obtain ⟨edgeIds', hedges', dx, dy, helements⟩ := Apply.exists_of_elementsOf_eq_ok hmaking
  obtain rfl : edgeIds' = edgeIds := Except.ok.inj (hedges'.symm.trans hedges)
  have hshown : applied.store.canvas.scene.elements =
      (namedElements (Document.parse text) edgeIds').map (Apply.shown (Document.parse text) dx dy) :=
    hscene.trans helements
  rcases hmade with ⟨n, hn, hlabel⟩ | ⟨e, he, hlabel⟩
  · rw [← boundText?_map_shown hshown] at hlabel
    exact hlabel (hholds.nodes n hn).2
  · obtain ⟨a, ha, hends, htext⟩ := hholds.exists_arrow he
    rw [hshown] at ha
    obtain ⟨b, hb, rfl⟩ := List.mem_map.1 ha
    rw [Apply.ends?_shown] at hends
    rw [Apply.id_shown, boundText?_map_shown hshown] at htext
    exact hlabel b hb hends htext

/-- A group has the id of a node, which gets a numbered variant of it. -/
def namesakeText : String := "flowchart TD\n    subgraph a[Team]\n        a[\"Ann\"]\n    end\n    a --> b\n"

/-- What that reads as. -/
def namesakeDocument : Document where
  direction? := some .topDown
  nodes := [⟨"a", 3, some ⟨"Ann", .rectangle, some "a"⟩⟩, ⟨"b", 5, none⟩]
  edges := [⟨"a", "b", none, false, 5⟩]
  groups := [⟨"a", "Team", 2⟩]
  declarations := [⟨"a", "Ann", .rectangle, 3⟩]

/-- The group and the node that share an id: a text that is lost. -/
def namesake : LostText where
  text := namesakeText
  doc := namesakeDocument
  edgeIds := ["a_b"]
  reads := by decide +kernel
  quiet := by
    simp only [Lint.violations, Lint.statementsViolations, Lint.statementViolations, Lint.labelFaults,
      String.contains_char_eq]
    decide +kernel
  ids_ok := by decide +kernel
  grammatical := by decide +kernel
  nonempty := by decide +kernel
  allocated := by decide +kernel
  lost := by
    simp only [namedElements, Layout.convert, Layout.containers, Layout.placed,
      Layout.entries_of_pairwise (Skeleton.ofDocument namesakeDocument ["a_b"]) (by decide +kernel)]
    decide +kernel

/-- A group is opened twice, and its second container gets the id of a node. -/
def reopenedText : String :=
  "flowchart TD\n    subgraph g\n        a[\"Ann\"]\n    end\n    subgraph g\n    end\n    a --> g_2\n"

/-- What that reads as. -/
def reopenedDocument : Document where
  direction? := some .topDown
  nodes := [⟨"a", 3, some ⟨"Ann", .rectangle, some "g"⟩⟩, ⟨"g_2", 7, none⟩]
  edges := [⟨"a", "g_2", none, false, 7⟩]
  groups := [⟨"g", "g", 2⟩, ⟨"g", "g", 5⟩]
  declarations := [⟨"a", "Ann", .rectangle, 3⟩]

/-- The group that is opened twice: a text that is lost. -/
def reopened : LostText where
  text := reopenedText
  doc := reopenedDocument
  edgeIds := ["a_g_2"]
  reads := by decide +kernel
  quiet := by
    simp only [Lint.violations, Lint.statementsViolations, Lint.statementViolations, Lint.labelFaults,
      String.contains_char_eq]
    decide +kernel
  ids_ok := by decide +kernel
  grammatical := by decide +kernel
  nonempty := by decide +kernel
  allocated := by decide +kernel
  lost := by
    simp only [namedElements, Layout.convert, Layout.containers, Layout.placed,
      Layout.entries_of_pairwise (Skeleton.ofDocument reopenedDocument ["a_g_2"]) (by decide +kernel)]
    decide +kernel

/-- The arrow from `text` to `x` has the id that is due to the text of `x`, which then shows the label of `x_2`. -/
def chainText : String := "flowchart TD\n    text --> x --> x_2\n"

/-- What that reads as. -/
def chainDocument : Document where
  direction? := some .topDown
  nodes := [⟨"text", 2, none⟩, ⟨"x", 2, none⟩, ⟨"x_2", 2, none⟩]
  edges := [⟨"text", "x", none, false, 2⟩, ⟨"x", "x_2", none, false, 2⟩]

/-- The chain of nodes: a text that is lost. -/
def chain : LostText where
  text := chainText
  doc := chainDocument
  edgeIds := ["text_x", "x_x_2"]
  reads := by decide +kernel
  quiet := by decide +kernel
  ids_ok := by decide +kernel
  grammatical := by decide +kernel
  nonempty := by decide +kernel
  allocated := by decide +kernel
  lost := by
    simp only [namedElements, Layout.convert, Layout.containers, Layout.placed,
      Layout.entries_of_pairwise (Skeleton.ofDocument chainDocument ["text_x", "x_x_2"]) (by decide +kernel)]
    decide +kernel

/-- A group without members has the id of an arrow, which then shows the label of the group. -/
def hollowText : String := "flowchart TD\n    subgraph a_b[Box]\n    end\n    a -->|yes| b\n"

/-- What that reads as. -/
def hollowDocument : Document where
  direction? := some .topDown
  nodes := [⟨"a", 4, none⟩, ⟨"b", 4, none⟩]
  edges := [⟨"a", "b", some "yes", false, 4⟩]
  groups := [⟨"a_b", "Box", 2⟩]

/-- The group without members: a text that is lost. -/
def hollow : LostText where
  text := hollowText
  doc := hollowDocument
  edgeIds := ["a_b"]
  reads := by decide +kernel
  quiet := by decide +kernel
  ids_ok := by decide +kernel
  grammatical := by decide +kernel
  nonempty := by decide +kernel
  allocated := by decide +kernel
  lost := by
    simp only [namedElements, Layout.convert, Layout.containers, Layout.placed,
      Layout.entries_of_pairwise (Skeleton.ofDocument hollowDocument ["a_b"]) (by decide +kernel)]
    decide +kernel

/-- Being accepted is not enough for a text to be held by the canvas: each condition on its names is needed. -/
theorem Applier.replace_loses :
    IsLost namesakeText ∧ IsLost reopenedText ∧ IsLost chainText ∧ IsLost hollowText :=
  ⟨namesake.isLost, reopened.isLost, chain.isLost, hollow.isLost⟩

end

end Whiteboard
