import Whiteboard.Proofs.Canvas.Fulfilment
import Whiteboard.Proofs.Canvas.Outline
import Whiteboard.Proofs.Canvas.Survival

/-!
# Shapes that an edit leaves alone

A text is put on a canvas, and a second one is merged with it that refers to a node without declaring it. Main statement:
the text that is kept then declares the node with the shape in which the canvas draws it (`Applier.shape_of_untouched`).

That need not be the shape which the first text gave it. The canvas draws nodes as rectangles, diamonds and ellipses only,
so the other outlines are rectangles from the second edit on; and a node whose id is taken by the container of a group is
not found on the canvas at all (`Applier.untouched_reshaped`).
-/

namespace Whiteboard

open Text

/-- A shape as the canvas draws it. -/
def Shape.drawn : Shape → Shape
  | .decision => .decision
  | .circle | .ellipse => .circle
  | .rectangle | .rounded | .stadium | .hexagon => .rectangle

namespace Shape

/-- What is read of the kind of element that shows a shape. -/
theorem shapeOf_kindOf (s : Shape) : Snapshot.shapeOf (Convert.kindOf s) = s.drawn := by
  cases s <;> rfl

@[simp] theorem drawn_normalized (s : Shape) : s.normalized.drawn = s.drawn := by
  cases s <;> rfl

@[simp] theorem normalized_drawn (s : Shape) : s.drawn.normalized = s.drawn := by
  cases s <;> rfl

end Shape

/-- A snapshot shows a node, and whatever it shows under the id of the node has the given shape. -/
structure Snapshot.ShowsAs (s : Snapshot) (id : String) (shape : Shape) : Prop where
  mem : id ∈ s.nodeIds
  shape_eq : ∀ n ∈ s.nodes, n.id = id → n.shape = shape

/-- A canvas that draws a skeleton shows its nodes as they are drawn. -/
theorem Layout.Draws.showsAs {c : Layout} {s : Skeleton} {dx dy : Float32} {scene : Scene} (h : c.Draws s dx dy scene)
    (hs : s.IsSound)
    (hsizes : Element.hasContainerSize { x := 0, y := 0, width := c.nodeWidth, height := c.nodeHeight } = false)
    {n : Skeleton.Node} (hn : n ∈ s.nodes) (text? : Option String) :
    (Snapshot.ofCanvas scene text?).ShowsAs n.id n.shape.drawn := by
  obtain ⟨p, hp, rfl⟩ := List.mem_map.1 ((c.placed_perm s).mem_iff.2 hn)
  have hshown : ∀ e ∈ scene.nodes, e.outline ∈ c.outlines s dx dy := by
    intro e he
    have hmem : e.outline ∈ scene.nodes.map (·.outline) := List.mem_map.2 ⟨e, he, rfl⟩
    rw [h.map_outline_nodes] at hmem
    exact List.mem_of_mem_filter hmem
  refine ⟨?_, ?_⟩
  · have hmem : nodeOutline dx dy p ∈ scene.nodes.map (·.outline) := by
      rw [h.map_outline_nodes]
      exact List.mem_filter.2 ⟨List.mem_append_right _ (List.mem_map.2 ⟨p, hp, rfl⟩), isNode_nodeOutline hsizes hp dx dy⟩
    obtain ⟨e, he, houtline⟩ := List.mem_map.1 hmem
    rw [Snapshot.nodeIds_ofCanvas]
    exact List.mem_map.2 ⟨e, he, congrArg (·.id) houtline⟩
  · intro k hk hid
    obtain ⟨e, he, rfl⟩ := List.mem_map.1 hk
    have houtline : e.outline = nodeOutline dx dy p := eq_nodeOutline_of_mem_outlines hs hp (hshown e he) hid
    have hkind : e.kind = Convert.kindOf p.node.shape := congrArg (·.kind) houtline
    rw [← Shape.shapeOf_kindOf, ← hkind]
    rfl

/-- In a merge, a node of the canvas that the document mentions without a declaration keeps the shape that it is shown with,
and the text of the merge declares it so. -/
theorem Merge.exists_shape_parse {p : Char → Prop} {s : Snapshot} {doc : Document} (hdoc : doc.WellFormed p)
    (hcanvas : ∀ g ∈ s.groups, '\n' ∉ g.id.toList) (hgroups : ∀ g ∈ doc.groups, '\n' ∉ g.id.toList) {id : String}
    {shape : Shape} (hshown : s.ShowsAs id shape) {m : Document.Node} (hm : doc.node? id = some m)
    (hundeclared : m.isDeclared = false) :
    ∃ k, (Document.parse (merged s doc).render).node? id = some k ∧ k.isDeclared = true ∧ k.shape = shape.normalized := by
  have hid : id ∈ (nodes s doc).map (·.id) :=
    (mem_map_id_nodes id).2 (List.mem_map.2 ⟨m, Document.mem_of_node? hm⟩)
  obtain ⟨n, hn, rfl⟩ := List.mem_map.1 hid
  have hmerged : n ∈ (merged s doc).nodes := hn
  have hunbroken : ∀ g ∈ (merged s doc).groups, '\n' ∉ g.id.toList := by
    intro g hg
    rcases List.mem_append.1 hg with hg | hg
    · obtain ⟨g', hg', rfl⟩ := List.mem_map.1 hg
      exact hgroups g' hg'
    · obtain ⟨g', hg', rfl⟩ := List.mem_map.1 hg
      exact hcanvas g' (List.mem_of_mem_filter hg')
  obtain ⟨w, hw, hwid, k, d, hk, hkd, hdshape⟩ := Spec.exists_details_parse (isWord_merged hdoc).1 hunbroken
    (isWord_merged hdoc).2 hmerged
  have hshape : w.shape = shape := by
    rcases List.mem_append.1 hw with hw | hw
    · obtain ⟨c, hc, hkept⟩ := List.mem_filterMap.1 hw
      obtain ⟨i, hi, rfl⟩ := Option.map_eq_some_iff.1 hkept
      obtain rfl : m = i := by
        rw [show c.id = n.id from hwid, hm] at hi
        exact Option.some.inj hi
      simpa [hundeclared] using hshown.shape_eq c hc hwid
    · obtain ⟨i, hi, rfl⟩ := List.mem_map.1 hw
      have hnew : i.id ∉ s.nodeIds := by simpa using (List.mem_filter.1 hi).2
      exact absurd hshown.mem (hwid ▸ hnew)
  refine ⟨k, hk, ?_, ?_⟩
  · rw [Document.Node.isDeclared, hkd]
    rfl
  · rw [Document.Node.shape, hkd, ← hshape, ← hdshape]
    rfl

/-- What is put on a canvas that has something on it is a merge. -/
theorem Apply.textFor_incremental {canvas : Canvas} (h : canvas.scene.isEmpty = false) (text : String) :
    (textFor .incremental canvas text).1 = mergedText (Snapshot.ofCanvas canvas.scene canvas.diagramText?) text := by
  simp [textFor, h]

namespace Applier

/-- What is kept of a text that is merged with a canvas that has something on it. -/
theorem diagramText?_of_incremental {a : Applier σ} (hmode : a.mode = .incremental) {now : Nat} {store : Store}
    {records : σ} {text : String} {applied : Applied σ} (h : a.apply now store records text = .ok applied)
    (hscene : store.canvas.scene.elements ≠ []) :
    applied.store.canvas.diagramText? =
      some (mergedText (Snapshot.ofCanvas store.canvas.scene store.canvas.diagramText?) text) := by
  rw [← Apply.textFor_incremental (List.isEmpty_eq_false_iff.2 hscene), ← hmode]
  obtain ⟨made, -, h⟩ := exists_of_bind_eq_ok h
  obtain ⟨kept, -, h⟩ := exists_of_bind_eq_ok h
  cases h
  rfl

section

open Whiteboard.Remap

/-- An edit leaves the shapes of nodes alone that it does not declare, as far as the canvas can draw them. Whatever text takes
the place of what was on a canvas, and whatever text is merged with it then: if both succeed, every node of the first text
that the second one mentions without declaring it is declared in the text that is kept, with the shape in which the canvas
draws it. This is so if the groups of the first text have distinct ids, none of them that of a node; if its elements are made
with ids of their own; if nodes are not as large as containers; and if no group id of the second text breaks a line. -/
theorem shape_of_untouched {records : RecordStore σ} {state : σ} {store : Store} {applied : Applied σ} {editor : Applier τ}
    {state' : τ} {edited : Applied τ} (c : Layout) (fresh : Nat → String) (key : String) (now now' : Nat)
    (text text' : String) (edgeIds : List String)
    (happly : Applier.apply ⟨c.convert fresh, records, key, .replaceCanvas⟩ now store state text = .ok applied)
    (hedit : editor.apply now' applied.store state' text' = .ok edited) (hmode : editor.mode = .incremental)
    (hgroups : (Document.parse text).groupIds.Nodup)
    (hdisjoint : ∀ g ∈ (Document.parse text).groupIds, g ∉ (Document.parse text).nodeIds)
    (hedges : allocateEdgeIds [] (Document.parse text).pairs = .ok edgeIds)
    (hfresh : IsSupply (Skeleton.ofDocument (Document.parse text) edgeIds) fresh)
    (hsizes : Element.hasContainerSize { x := 0, y := 0, width := c.nodeWidth, height := c.nodeHeight } = false)
    (hunbroken : ∀ g ∈ (Document.parse text').groups, '\n' ∉ g.id.toList) :
    ∃ kept, edited.store.canvas.diagramText? = some kept ∧
      ∀ n ∈ (Document.parse text).nodes, ∀ m, (Document.parse text').node? n.id = some m → m.isDeclared = false →
        ∃ k, (Document.parse kept).node? n.id = some k ∧ k.isDeclared = true ∧ k.shape = n.shape.drawn := by
  obtain ⟨made, hmade, helements⟩ := elementsOf_of_replace happly
  have hs : (Skeleton.ofDocument (Document.parse text) edgeIds).IsSound :=
    Skeleton.isSound_ofDocument (Document.wellFormed_parse_any text) hgroups hdisjoint
  obtain ⟨name, box, hbox, hdraws⟩ := Apply.exists_draws hmade helements hedges hs hfresh
  have hfull : applied.store.canvas.scene.elements ≠ [] := helements ▸ Apply.elements_ne_nil hmade
  refine ⟨_, diagramText?_of_incremental hmode hedit hfull, ?_⟩
  intro n hn m hm hundeclared
  have hshown := hdraws.showsAs hs hsizes (List.mem_map.2 ⟨n, hn, rfl⟩) applied.store.canvas.diagramText?
  have hcanvas : ∀ g ∈ (Snapshot.ofCanvas applied.store.canvas.scene applied.store.canvas.diagramText?).groups,
      '\n' ∉ g.id.toList := fun g hg => newline_notMem_of_isSemanticId (Snapshot.isSemanticId_of_mem_groups hg)
  obtain ⟨k, hk, hdeclared, hshape⟩ := Merge.exists_shape_parse (Document.wellFormed_parse_any text') hcanvas hunbroken
    hshown hm hundeclared
  refine ⟨k, hk, hdeclared, ?_⟩
  rw [hshape, Shape.normalized_drawn, Shape.drawn_normalized]

end

end Applier

/-! ## Two texts, one after the other -/

/-- What an empty canvas in the given view shows after a text that reads as the given document has been put on it. -/
def drawnScene (view : Viewport) (doc : Document) (edgeIds : List String) : Scene where
  elements := Scene.recentre view ((namedElements doc edgeIds).map (Apply.relabel doc))
  viewport := view

/-- The elements that are made for a document whose edges have the given ids. -/
theorem Apply.elements_eq_recentre {convert : Skeleton → List Element} {view : Viewport} {doc : Document}
    {made : Remapped} {edgeIds : List String} (h : elementsOf convert view doc = .ok made)
    (hedges : allocateEdgeIds [] doc.pairs = .ok edgeIds) :
    made.elements = Scene.recentre view ((remap (convert (Skeleton.ofDocument doc edgeIds))
      (Skeleton.ofDocument doc edgeIds).intended).elements.map (relabel doc)) := by
  obtain ⟨edgeIds', hids, h⟩ := exists_of_bind_eq_ok h
  obtain rfl : edgeIds' = edgeIds := Except.ok.inj ((eq_ok_of_mapError_eq_ok hids).symm.trans hedges)
  simp only at h
  split at h
  · cases h
  · cases h
    rfl

/-- What a canvas holds after a text has taken the place of what was there. -/
theorem Applier.canvas_of_replace {convert : Skeleton → List Element} {records : RecordStore σ} {key : String}
    {now : Nat} {store : Store} {state : σ} {text : String} {applied : Applied σ} {edgeIds : List String}
    (h : Applier.apply ⟨convert, records, key, .replaceCanvas⟩ now store state text = .ok applied)
    (hedges : allocateEdgeIds [] (Document.parse text).pairs = .ok edgeIds) :
    let s := Skeleton.ofDocument (Document.parse text) edgeIds
    applied.store.canvas = Canvas.commit (Scene.recentre store.canvas.scene.viewport
      ((remap (convert s) s.intended).elements.map (Apply.relabel (Document.parse text)))) text store.canvas := by
  obtain ⟨made, hmade, h⟩ := exists_of_bind_eq_ok h
  obtain ⟨kept, -, h⟩ := exists_of_bind_eq_ok h
  cases h
  exact congrArg (Canvas.commit · text store.canvas) (Apply.elements_eq_recentre hmade hedges)

/-- A text with a node in it can be put on an empty canvas, and what comes of that. -/
theorem exists_drawnScene (view : Viewport) {text : String} {edgeIds : List String}
    (hnodes : (Document.parse text).nodes ≠ []) (hedges : allocateEdgeIds [] (Document.parse text).pairs = .ok edgeIds) :
    ∃ applied, Applier.apply ⟨({} : Layout).convert numberedId, RecordStore.memory, "sketch", .replaceCanvas⟩ 0
        (Store.ofScene { viewport := view }) [] text = .ok applied ∧
      applied.store.canvas = ⟨drawnScene view (Document.parse text) edgeIds, some text⟩ := by
  obtain ⟨applied, happly, -⟩ := Applier.exists_apply_eq_ok {} numberedId RecordStore.memory "sketch" .replaceCanvas 0
    (Store.ofScene { viewport := view }) [] text hnodes hedges fun _ => ⟨_, rfl⟩
  refine ⟨applied, happly, ?_⟩
  rw [Applier.canvas_of_replace happly hedges, drawnScene, namedElements]
  rfl

/-- A text that is put on an empty canvas, and a second one that is merged with it, once it is known what they come to. -/
theorem exists_edit {text text' kept : String} {edgeIds : List String} (edgeIds' : List String)
    (hnodes : (Document.parse text).nodes ≠ [])
    (hedges : allocateEdgeIds [] (Document.parse text).pairs = .ok edgeIds)
    (hkept : (merged (Snapshot.ofCanvas (drawnScene {} (Document.parse text) edgeIds) (some text))
      (Document.parse text')).render = kept)
    (hnodes' : (Document.parse kept).nodes ≠ []) (hedges' : allocateEdgeIds [] (Document.parse kept).pairs = .ok edgeIds') :
    ∃ applied, Applier.apply ⟨({} : Layout).convert numberedId, RecordStore.memory, "sketch", .replaceCanvas⟩ 0 {} [] text =
        .ok applied ∧
      applied.store.canvas.scene = drawnScene {} (Document.parse text) edgeIds ∧
      ∃ edited, Applier.apply ⟨({} : Layout).convert numberedId, RecordStore.memory, "sketch", .incremental⟩ 1 applied.store
          applied.records text' = .ok edited ∧
        edited.store.canvas.diagramText? = some kept := by
  obtain ⟨applied, happly, hcanvas⟩ := exists_drawnScene {} hnodes hedges
  have hfull : applied.store.canvas.scene.elements ≠ [] := by
    obtain ⟨made, hmade, helements⟩ := Applier.elementsOf_of_replace happly
    exact helements ▸ Apply.elements_ne_nil hmade
  have hfor : (Apply.textFor .incremental applied.store.canvas text').1 = kept := by
    rw [Apply.textFor_incremental (List.isEmpty_eq_false_iff.2 hfull), hcanvas, mergedText, hkept]
  subst hfor
  obtain ⟨edited, hedit, htext⟩ := Applier.exists_apply_eq_ok {} numberedId RecordStore.memory "sketch" .incremental 1
    applied.store applied.records text' hnodes' hedges' fun _ => ⟨_, rfl⟩
  obtain ⟨-, -, -, hstored⟩ := Applier.exists_of_apply_eq_ok hedit
  exact ⟨applied, happly, congrArg (·.scene) hcanvas, edited, hedit, hstored.trans (congrArg some htext)⟩

/-- A text with a diamond, a circle in a group and a round node. -/
def tidyText : String := "flowchart TD\nb\x7b\"Bob\"\x7d\nsubgraph g\na((\"Ann\"))\nend\nb --> c(\"Cem\")\n"

/-- What that reads as. -/
def tidyDocument : Document where
  direction? := some .topDown
  nodes := [⟨"b", 2, some ⟨"Bob", .decision, none⟩⟩, ⟨"a", 4, some ⟨"Ann", .circle, some "g"⟩⟩,
    ⟨"c", 6, some ⟨"Cem", .rounded, none⟩⟩]
  edges := [⟨"b", "c", none, false, 6⟩]
  groups := [⟨"g", "g", 3⟩]
  declarations := [⟨"b", "Bob", .decision, 2⟩, ⟨"a", "Ann", .circle, 4⟩, ⟨"c", "Cem", .rounded, 6⟩]

/-- A text that mentions the circle and the round node, in front of one that is new. -/
def appendixText : String := "flowchart TD\nc --> a\na --> d\n"

/-- What that reads as. -/
def appendixDocument : Document where
  direction? := some .topDown
  nodes := [⟨"c", 2, none⟩, ⟨"a", 2, none⟩, ⟨"d", 3, none⟩]
  edges := [⟨"c", "a", none, false, 2⟩, ⟨"a", "d", none, false, 3⟩]

/-- The circle is read back as a circle, and the round node as a rectangle. -/
theorem Applier.shape_of_untouched_tidy :
    tidyDocument.groupIds.Nodup ∧ (∀ g ∈ tidyDocument.groupIds, g ∉ tidyDocument.nodeIds) ∧
    allocateEdgeIds [] tidyDocument.pairs = .ok ["b_c"] ∧ IsSupply (Skeleton.ofDocument tidyDocument ["b_c"]) numberedId ∧
    (∀ g ∈ appendixDocument.groups, '\n' ∉ g.id.toList) ∧
    ∃ applied, Applier.apply ⟨({} : Layout).convert numberedId, RecordStore.memory, "sketch", .replaceCanvas⟩ 0 {} []
        tidyText = .ok applied ∧
      ∃ edited, Applier.apply ⟨({} : Layout).convert numberedId, RecordStore.memory, "sketch", .incremental⟩ 1 applied.store
          applied.records appendixText = .ok edited ∧
        ∃ kept, edited.store.canvas.diagramText? = some kept ∧
          (∃ k, (Document.parse kept).node? "a" = some k ∧ k.isDeclared = true ∧ k.shape = .circle) ∧
          ∃ k, (Document.parse kept).node? "c" = some k ∧ k.isDeclared = true ∧ k.shape = .rectangle := by
  have hread : Document.parse tidyText = tidyDocument := by decide +kernel
  have hread' : Document.parse appendixText = appendixDocument := by decide +kernel
  have hgroups : tidyDocument.groupIds.Nodup := by decide +kernel
  have hdisjoint : ∀ g ∈ tidyDocument.groupIds, g ∉ tidyDocument.nodeIds := by decide +kernel
  have hedges : allocateEdgeIds [] tidyDocument.pairs = .ok ["b_c"] := by decide +kernel
  have hsupply : IsSupply (Skeleton.ofDocument tidyDocument ["b_c"]) numberedId := isSupply_numberedId (by decide +kernel) 0
  have hsizes : Element.hasContainerSize { x := 0, y := 0, width := 160, height := 60 } = false := by decide +kernel
  have hunbroken : ∀ g ∈ appendixDocument.groups, '\n' ∉ g.id.toList := by decide +kernel
  have hsorted := Layout.entries_of_pairwise (Skeleton.ofDocument tidyDocument ["b_c"]) (by decide +kernel)
  have hkept : (merged (Snapshot.ofCanvas (drawnScene {} tidyDocument ["b_c"]) (some tidyText)) appendixDocument).render =
      "flowchart TD\n    c[\"Cem\"]\n    d[\"d\"]\n    subgraph g[\"g\"]\n        a((\"Ann\"))\n    end\n" ++
        "    c --> a\n    a --> d\n" := by
    simp only [drawnScene, namedElements, Layout.convert, Layout.containers, Layout.placed, hsorted]
    decide +kernel
  rw [← hread] at hgroups hdisjoint hedges hsupply hkept ⊢
  rw [← hread'] at hunbroken hkept ⊢
  obtain ⟨applied, happly, -, edited, hedit, -⟩ := exists_edit ["c_a", "a_d"] (by rw [hread]; decide) hedges hkept
    (by decide +kernel) (by decide +kernel)
  obtain ⟨kept, hstored, hshapes⟩ := Applier.shape_of_untouched {} numberedId "sketch" 0 1 tidyText appendixText ["b_c"]
    happly hedit rfl hgroups hdisjoint hedges hsupply hsizes hunbroken
  refine ⟨hgroups, hdisjoint, hedges, hsupply, hunbroken, applied, happly, edited, hedit, kept, hstored, ?_, ?_⟩
  · exact hshapes ⟨"a", 4, some ⟨"Ann", .circle, some "g"⟩⟩ (by rw [hread]; decide) ⟨"a", 2, none⟩
      (by rw [hread']; decide) rfl
  · exact hshapes ⟨"c", 6, some ⟨"Cem", .rounded, none⟩⟩ (by rw [hread]; decide) ⟨"c", 2, none⟩
      (by rw [hread']; decide) rfl

/-! ## Texts after which a shape is lost -/

/-- A text that is accepted, and a second one that is accepted on the canvas that an empty one becomes, and that mentions a
node without declaring it. The first text gives the node one shape, and the text that is kept after the merge another. -/
def IsReshaped (text text' id : String) (before after : Shape) : Prop :=
  (Pipeline.forMode {} .replaceCanvas {}).validate text = .ok [] ∧
  ((Document.parse text).node? id).map (·.shape) = some before ∧
  ((Document.parse text').node? id).map (·.isDeclared) = some false ∧
  ∃ applied, Applier.apply ⟨({} : Layout).convert numberedId, RecordStore.memory, "sketch", .replaceCanvas⟩ 0 {} [] text =
      .ok applied ∧
    (Pipeline.forMode {} .incremental (LiveIds.ofScene applied.store.canvas.scene)).validate text' = .ok [] ∧
    ∃ edited, Applier.apply ⟨({} : Layout).convert numberedId, RecordStore.memory, "sketch", .incremental⟩ 1 applied.store
        applied.records text' = .ok edited ∧
      ∃ kept, edited.store.canvas.diagramText? = some kept ∧ ((Document.parse kept).node? id).map (·.shape) = some after

/-- What comes of a second text is known once it is known what is merged with the canvas that the first one makes. -/
theorem isReshaped_of_drawnScene {text text' kept : String} {doc doc' keptDoc : Document} (id : String)
    (edgeIds edgeIds' : List String) {n m k : Document.Node}
    (hread : Document.parse text = doc ∧ Document.parse text' = doc' ∧ Document.parse kept = keptDoc)
    (hlint : Lint.violations {} text = [] ∧ Lint.violations {} text' = [])
    (hgrammar : grammarFault? text = none ∧ grammarFault? text' = none)
    (hids : (Ids.checkDocument (Pipeline.idsFor .replaceCanvas {}) doc).isOk = true)
    (hedges : allocateEdgeIds [] doc.pairs = .ok edgeIds ∧ allocateEdgeIds [] keptDoc.pairs = .ok edgeIds')
    (hdrawn :
      (Ids.checkDocument (Pipeline.idsFor .incremental (LiveIds.ofScene (drawnScene {} doc edgeIds))) doc').isOk = true ∧
      (merged (Snapshot.ofCanvas (drawnScene {} doc edgeIds) (some text)) doc').render = kept)
    (hn : doc.node? id = some n) (hm : doc'.node? id = some m) (hundeclared : m.isDeclared = false)
    (hk : keptDoc.node? id = some k) : IsReshaped text text' id n.shape k.shape := by
  obtain ⟨rfl, rfl, rfl⟩ := hread
  obtain ⟨hids', hkept⟩ := hdrawn
  obtain ⟨applied, happly, hscene, edited, hedit, hstored⟩ := exists_edit edgeIds'
    (List.ne_nil_of_mem (Document.mem_of_node? hn).1) hedges.1 hkept (List.ne_nil_of_mem (Document.mem_of_node? hk).1)
    hedges.2
  refine ⟨Pipeline.validate_eq_ok_nil hlint.1 hids hgrammar.1, congrArg _ hn, ?_, applied, happly,
    Pipeline.validate_eq_ok_nil hlint.2 ?_ hgrammar.2, edited, hedit, kept, hstored, congrArg _ hk⟩
  · rw [hm, Option.map_some, hundeclared]
  · rw [hscene]
    exact hids'

/-- A node whose brackets the canvas has no kind of element for. -/
def roundText : String := "flowchart TD\na(\"Ann\")\n"

/-- What that reads as. -/
def roundDocument : Document where
  direction? := some .topDown
  nodes := [⟨"a", 2, some ⟨"Ann", .rounded, none⟩⟩]
  declarations := [⟨"a", "Ann", .rounded, 2⟩]

/-- An edge from a node of the canvas to one that is new. -/
def mentionDocument (id : String) : Document where
  direction? := some .topDown
  nodes := [⟨id, 2, none⟩, ⟨"c", 2, none⟩]
  edges := [⟨id, "c", none, false, 2⟩]

/-- What the merge of such an edge reads as, if nothing else is left of the canvas. -/
def mentionedDocument (id label : String) : Document where
  direction? := some .topDown
  nodes := [⟨id, 2, some ⟨label, .rectangle, none⟩⟩, ⟨"c", 3, some ⟨"c", .rectangle, none⟩⟩]
  edges := [⟨id, "c", none, false, 4⟩]
  declarations := [⟨id, label, .rectangle, 2⟩, ⟨"c", "c", .rectangle, 3⟩]

/-- It is read back as a rectangle. -/
theorem isReshaped_roundText : IsReshaped roundText "flowchart TD\na --> c\n" "a" .rounded .rectangle := by
  have hread : Document.parse roundText = roundDocument ∧ Document.parse "flowchart TD\na --> c\n" = mentionDocument "a" ∧
      Document.parse "flowchart TD\n    a[\"Ann\"]\n    c[\"c\"]\n    a --> c\n" = mentionedDocument "a" "Ann" := by
    decide +kernel
  have hlint : Lint.violations {} roundText = [] ∧ Lint.violations {} "flowchart TD\na --> c\n" = [] := by
    simp only [Lint.violations, Lint.statementsViolations, Lint.statementViolations, Lint.labelFaults,
      String.contains_char_eq]
    decide +kernel
  have hsorted := Layout.entries_of_pairwise (Skeleton.ofDocument roundDocument []) (by decide +kernel)
  refine isReshaped_of_drawnScene "a" [] ["a_c"] hread hlint (by decide +kernel) (by decide +kernel) (by decide +kernel) ?_
    rfl rfl rfl rfl
  simp only [drawnScene, namedElements, Layout.convert, Layout.containers, Layout.placed, hsorted]
  decide +kernel

/-- A node that is called like its group. -/
def overshadowedText : String := "flowchart TD\nsubgraph a\na\x7b\"Ann\"\x7d\nend\n"

/-- What that reads as. -/
def overshadowedDocument : Document where
  direction? := some .topDown
  nodes := [⟨"a", 3, some ⟨"Ann", .decision, some "a"⟩⟩]
  groups := [⟨"a", "a", 2⟩]
  declarations := [⟨"a", "Ann", .decision, 3⟩]

/-- Its decision is read back as a rectangle. -/
theorem isReshaped_overshadowedText :
    IsReshaped overshadowedText "flowchart TD\na --> c\n" "a" .decision .rectangle := by
  have hread : Document.parse overshadowedText = overshadowedDocument ∧
      Document.parse "flowchart TD\na --> c\n" = mentionDocument "a" ∧
      Document.parse "flowchart TD\n    a[\"a\"]\n    c[\"c\"]\n    a --> c\n" = mentionedDocument "a" "a" := by
    decide +kernel
  have hlint : Lint.violations {} overshadowedText = [] ∧ Lint.violations {} "flowchart TD\na --> c\n" = [] := by
    simp only [Lint.violations, Lint.statementsViolations, Lint.statementViolations, Lint.labelFaults,
      String.contains_char_eq]
    decide +kernel
  have hsorted := Layout.entries_of_pairwise (Skeleton.ofDocument overshadowedDocument []) (by decide +kernel)
  refine isReshaped_of_drawnScene "a" [] ["a_c"] hread hlint (by decide +kernel) (by decide +kernel) (by decide +kernel) ?_
    rfl rfl rfl rfl
  simp only [drawnScene, namedElements, Layout.convert, Layout.containers, Layout.placed, hsorted]
  decide +kernel

/-- A group that is opened twice, so that its second container gets the id of a node. -/
def doubledText : String := "flowchart TD\ng_2((\"Bob\"))\nsubgraph g\na[\"a\"]\nend\nsubgraph g\nend\n"

/-- What that reads as. -/
def doubledDocument : Document where
  direction? := some .topDown
  nodes := [⟨"g_2", 2, some ⟨"Bob", .circle, none⟩⟩, ⟨"a", 4, some ⟨"a", .rectangle, some "g"⟩⟩]
  groups := [⟨"g", "g", 3⟩, ⟨"g", "g", 6⟩]
  declarations := [⟨"g_2", "Bob", .circle, 2⟩, ⟨"a", "a", .rectangle, 4⟩]

/-- The circle is read back as a rectangle. -/
theorem isReshaped_doubledText : IsReshaped doubledText "flowchart TD\ng_2 --> c\n" "g_2" .circle .rectangle := by
  have hread : Document.parse doubledText = doubledDocument ∧
      Document.parse "flowchart TD\ng_2 --> c\n" = mentionDocument "g_2" ∧
      Document.parse "flowchart TD\n    g_2[\"g_2\"]\n    c[\"c\"]\n    g_2 --> c\n" = mentionedDocument "g_2" "g_2" := by
    decide +kernel
  have hlint : Lint.violations {} doubledText = [] ∧ Lint.violations {} "flowchart TD\ng_2 --> c\n" = [] := by
    simp only [Lint.violations, Lint.statementsViolations, Lint.statementViolations, Lint.labelFaults,
      String.contains_char_eq]
    decide +kernel
  have hsorted := Layout.entries_of_pairwise (Skeleton.ofDocument doubledDocument []) (by decide +kernel)
  refine isReshaped_of_drawnScene "g_2" [] ["g_2_c"] hread hlint (by decide +kernel) (by decide +kernel) (by decide +kernel) ?_
    rfl rfl rfl rfl
  simp only [drawnScene, namedElements, Layout.convert, Layout.containers, Layout.placed, hsorted]
  decide +kernel

/-- Being accepted is not enough for the shape of a node to stay as it is: the canvas has to have a kind of element for it, and
the names of the first text have to be kept apart. -/
theorem Applier.untouched_reshaped :
    IsReshaped roundText "flowchart TD\na --> c\n" "a" .rounded .rectangle ∧
    IsReshaped overshadowedText "flowchart TD\na --> c\n" "a" .decision .rectangle ∧
    IsReshaped doubledText "flowchart TD\ng_2 --> c\n" "g_2" .circle .rectangle :=
  ⟨isReshaped_roundText, isReshaped_overshadowedText, isReshaped_doubledText⟩

end Whiteboard
