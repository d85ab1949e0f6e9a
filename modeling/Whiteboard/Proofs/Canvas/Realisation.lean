import Whiteboard.Canvas.Apply
import Whiteboard.Proofs.Canvas.Naming

/-!
# The canvas shows its text

Main statement: after a text has been put on a canvas, comparing the canvas with the text that it keeps finds nothing to
change (`Applier.apply_realises`).

What is put on the canvas is a conversion with the ids that are due, whose texts are given the labels of the document and
which is moved as a whole. Neither step touches what a snapshot reads of a shape or an arrow, so the nodes and the edges
of the snapshot are those of the conversion; and the labels are found because the text of a shape has an id made from
that of the shape and from nothing else.
-/

namespace Whiteboard

open Whiteboard.Text

/-! ## Labels put in and elements moved -/

namespace Apply

/-- Relabelling changes the content of an element at most. -/
theorem relabel_eq (doc : Document) (e : Element) :
    relabel doc e = e ∨ ∃ content, relabel doc e = withContent content e := by
  unfold relabel
  split
  · exact Or.inr ⟨_, rfl⟩
  · exact Or.inl rfl

/-- An element with its label put in and moved by the given distances. -/
def shown (doc : Document) (dx dy : Float32) (e : Element) : Element :=
  { relabel doc e with transform := (relabel doc e).transform.moved dx dy }

/-- What a label and a move leave as it was. -/
theorem shown_spec (doc : Document) (dx dy : Float32) (e : Element) :
    (shown doc dx dy e).id = e.id ∧ (shown doc dx dy e).container? = e.container? ∧
    (shown doc dx dy e).ends? = e.ends? ∧ (shown doc dx dy e).isNode = e.isNode ∧
    (shown doc dx dy e).isShape = e.isShape ∧ (shown doc dx dy e).isArrow = e.isArrow := by
  obtain ⟨id, kind, transform, bound, groupIds⟩ := e
  rw [shown]
  rcases relabel_eq doc ⟨id, kind, transform, bound, groupIds⟩ with h | ⟨content, h⟩
  · rw [h]
    cases kind <;> exact ⟨rfl, rfl, rfl, rfl, rfl, rfl⟩
  · rw [h]
    cases kind <;> exact ⟨rfl, rfl, rfl, rfl, rfl, rfl⟩

@[simp] theorem id_shown (doc : Document) (dx dy : Float32) (e : Element) : (shown doc dx dy e).id = e.id :=
  (shown_spec doc dx dy e).1

@[simp] theorem container?_shown (doc : Document) (dx dy : Float32) (e : Element) :
    (shown doc dx dy e).container? = e.container? := (shown_spec doc dx dy e).2.1

@[simp] theorem ends?_shown (doc : Document) (dx dy : Float32) (e : Element) :
    (shown doc dx dy e).ends? = e.ends? := (shown_spec doc dx dy e).2.2.1

@[simp] theorem isNode_shown (doc : Document) (dx dy : Float32) (e : Element) :
    (shown doc dx dy e).isNode = e.isNode := (shown_spec doc dx dy e).2.2.2.1

@[simp] theorem isShape_shown (doc : Document) (dx dy : Float32) (e : Element) :
    (shown doc dx dy e).isShape = e.isShape := (shown_spec doc dx dy e).2.2.2.2.1

@[simp] theorem isArrow_shown (doc : Document) (dx dy : Float32) (e : Element) :
    (shown doc dx dy e).isArrow = e.isArrow := (shown_spec doc dx dy e).2.2.2.2.2

/-- What the id of a text is made from is found again. -/
theorem ownerOf?_append (owner : String) : ownerOf? (Remap.textPrefix ++ owner) = some owner := by
  have hprefix : Remap.textPrefix.toList.isPrefixOf (Remap.textPrefix ++ owner).toList = true := by
    rw [String.toList_append, List.isPrefixOf_iff_prefix]
    exact List.prefix_append _ _
  have hrest : (Remap.textPrefix ++ owner).toList.drop Remap.textPrefix.toList.length = owner.toList := by
    rw [String.toList_append, List.drop_left]
  simp only [ownerOf?, hprefix, if_true, hrest, String.ofList_toList]

/-- The content of the text of an element: the label of what the element stands for, or what it was. -/
theorem text?_shown_label (doc : Document) (dx dy : Float32) (content owner : String) (t : Transform) :
    (shown doc dx dy (Convert.labelOf (Remap.textPrefix ++ owner) content owner t)).text? =
      some ((labelOf? doc owner).getD content) := by
  simp only [shown, relabel, Convert.id_labelOf, ownerOf?_append, Option.bind_some]
  cases labelOf? doc owner <;> rfl

/-- Elements with their labels put in, in the middle of the view: all are moved alike. -/
theorem recentre_eq_map (view : Viewport) (doc : Document) (es : List Element) :
    ∃ dx dy, Scene.recentre view (es.map (relabel doc)) = es.map (shown doc dx dy) := by
  cases es with
  | nil => exact ⟨0, 0, rfl⟩
  | cons e es =>
    rw [Scene.recentre]
    cases hbox : Scene.boundingBox? ((e :: es).map (relabel doc)) with
    | none => cases hbox
    | some box => exact ⟨_, _, List.map_map⟩

end Apply

/-! ## Snapshots of elements that are shown -/

namespace Snapshot

variable (scene : Scene) (text? : Option String)

/-- The nodes of a snapshot are those of the canvas. -/
theorem nodeIds_ofCanvas : (ofCanvas scene text?).nodeIds = scene.nodes.map (·.id) := by
  rw [ofCanvas, nodeIds, List.map_map]
  rfl

/-- The edges of a snapshot are the arrows that join two of its nodes. -/
theorem pairs_ofCanvas : (ofCanvas scene text?).pairs =
    (scene.elements.filterMap (·.ends?)).filter fun (start, finish) =>
      (scene.nodes.map (·.id)).contains start && (scene.nodes.map (·.id)).contains finish := by
  have hids : (scene.nodes.map (nodeOf scene)).map (·.id) = scene.nodes.map (·.id) := by
    rw [List.map_map]
    rfl
  rw [ofCanvas, pairs]
  simp only [hids]
  generalize scene.nodes.map (·.id) = ids
  induction scene.elements with
  | nil => rfl
  | cons e es ih =>
    rw [List.filterMap_cons, List.filterMap_cons]
    cases hends : e.ends? with
    | none => simpa [edge?, hends] using ih
    | some pair =>
      obtain ⟨start, finish⟩ := pair
      by_cases hboth : start ∈ ids ∧ finish ∈ ids
      · simpa [edge?, hends, hboth] using ih
      · simpa [edge?, hends, hboth] using ih

end Snapshot

/-! ## Ids of texts -/

namespace Remap

/-- What begins like the id of a text before an underscore begins so without it, unless it is all that comes before the
underscore of the mark: of the parts that the mark begins with only two are followed by an underscore or by nothing. -/
theorem prefix_of_prefix_underscore {l rest : List Char} (h : textPrefix.toList <+: l ++ '_' :: rest)
    (hne : l ≠ "text".toList) : textPrefix.toList <+: l := by
  rcases List.prefix_or_prefix_of_prefix h (List.prefix_append _ _) with hl | hl
  · exact hl
  · have hpart : l ∈ textPrefix.toList.inits := (List.mem_inits _ _).2 hl
    have hinits : textPrefix.toList.inits = [[], ['t'], ['t', 'e'], ['t', 'e', 'x'], "text".toList, textPrefix.toList] := by
      decide
    simp only [hinits, List.mem_cons, List.not_mem_nil, or_false] at hpart
    rcases hpart with rfl | rfl | rfl | rfl | rfl | rfl
    · simp [textPrefix] at h
    · simp [textPrefix] at h
    · simp [textPrefix] at h
    · simp [textPrefix] at h
    · exact absurd rfl hne
    · exact List.prefix_refl _

/-- No variant of a name begins like the id of a text if the name does not and is not what comes before the underscore. -/
theorem not_prefix_of_isVariant {name id : String} (hname : ¬ textPrefix.toList <+: name.toList) (hne : name ≠ "text")
    (h : IsVariant name id) : ¬ textPrefix.toList <+: id.toList := by
  obtain ⟨k, rfl⟩ := h
  cases k with
  | zero => exact hname
  | succ k =>
    intro hprefix
    have hrest : (variant name (k + 1)).toList = name.toList ++ '_' :: (toString (k + 2)).toList := by
      simp [variant]
    rw [hrest] at hprefix
    exact hname (prefix_of_prefix_underscore hprefix fun heq => hne (String.toList_inj.1 heq))

end Remap

namespace Layout

open Whiteboard.Convert Whiteboard.Remap

variable {c : Layout} {s : Skeleton} {name : Nat → String}

/-- No two main elements are due the same id. -/
theorem ownerIds_nodup (hs : s.IsSound) : (c.ownerIds s).Nodup := Renaming.nodup_append_grant (shapeIds_nodup hs) _

/-- Where no main element has the id that is due to the text of another, every text has the id made from that of its
figure. -/
theorem IsNaming.id_text_eq (h : c.IsNaming s name) (hs : s.IsSound)
    (howners : ∀ id ∈ c.ownerIds s, textPrefix ++ id ∉ c.ownerIds s) :
    ∀ f ∈ c.figures s name, f.label?.isSome = true → name (f.place + 1) = textPrefix ++ f.main.id := by
  have hwants : (c.textWants s).Nodup := by
    have hids : (((c.figures s name).filter (·.label?.isSome)).map (·.main.id)).Nodup := by
      refine List.Nodup.sublist (List.filter_sublist.map _) ?_
      rw [h.map_id_figures]
      exact ownerIds_nodup hs
    have hmade := hids.map (f := (textPrefix ++ ·)) fun a b hab => by simpa using hab
    rw [List.map_map] at hmade
    rw [h.textWants_eq]
    exact hmade
  have hnodup : (c.ownerIds s ++ c.textWants s).Nodup := by
    refine (ownerIds_nodup hs).append hwants fun id howner hwant => ?_
    obtain ⟨owner, hwanting, rfl⟩ := mem_textWants hwant
    exact howners owner hwanting howner
  have htexts := h.texts
  rw [textIds, Renaming.grant_of_nodup hnodup, map_name_textPlaces, h.textWants_eq] at htexts
  intro f hf hlabel
  exact List.map_inj_left.1 htexts f (List.mem_filter.2 ⟨hf, hlabel⟩)

/-! ## What the canvas shows -/

/-- A layout whose nodes are told from its containers by their sizes. -/
structure TellsApart (c : Layout) (s : Skeleton) : Prop where
  node : Element.hasContainerSize { x := 0, y := 0, width := c.nodeWidth, height := c.nodeHeight } = false
  container : ∀ g ∈ c.containers s, Element.hasContainerSize g.2 = true

/-- The elements that stand for nodes are the shapes of nodes. -/
theorem TellsApart.filter_isNode (h : c.TellsApart s) (fresh : Nat → String) :
    (c.convert fresh s).filter (·.isNode) = (c.nodeFigures s fresh).map (·.main) := by
  have hcontainers : (c.containerFigures s fresh).filter (·.main.isNode) = [] := by
    rw [List.filter_eq_nil_iff]
    intro f hf
    obtain ⟨⟨g, k⟩, hg, rfl⟩ := List.mem_map.1 hf
    have hsize := h.container g (List.fst_mem_of_mem_zipIdx hg)
    simp [containerFigure, Element.isNode, Element.role?, hsize]
  have hnodes : (c.nodeFigures s fresh).filter (·.main.isNode) = c.nodeFigures s fresh := by
    rw [List.filter_eq_self]
    intro f hf
    obtain ⟨⟨p, i⟩, hp, rfl⟩ := List.mem_map.1 hf
    obtain ⟨hwidth, hheight⟩ := c.size_placed s (List.fst_mem_of_mem_zipIdx hp)
    have hsize : Element.hasContainerSize p.transform = false := by
      rw [← h.node, Element.hasContainerSize, hwidth, hheight]
      rfl
    cases hshape : p.node.shape <;> simp [nodeFigure, Element.isNode, Element.role?, kindOf, hshape, hsize]
  have harrows : (c.arrowFigures s fresh).filter (·.main.isNode) = [] := by
    rw [List.filter_eq_nil_iff]
    intro f hf
    simp [Element.isNode_of_not_isShape (c.isArrow_arrowFigures s hf).2]
  rw [convert_eq_flatMap, filter_elements (by simp), figures, List.filter_append, List.filter_append, hcontainers,
    hnodes, harrows, List.nil_append, List.append_nil]

/-- A scene shows a skeleton: its elements are those of a conversion with the ids that are due, with the labels of a
document put in and all moved alike. No shape and no arrow has the id that is due to the text of another. -/
structure Shows (c : Layout) (s : Skeleton) (name : Nat → String) (doc : Document) (scene : Scene) : Prop where
  sound : s.IsSound
  naming : c.IsNaming s name
  owners : ∀ id ∈ c.ownerIds s, textPrefix ++ id ∉ c.ownerIds s
  elements : ∃ dx dy, scene.elements = (c.convert name s).map (Apply.shown doc dx dy)

namespace Shows

variable {doc : Document} {scene : Scene}

/-- The nodes of the scene are the shapes of nodes, as they are shown. -/
theorem nodes (h : c.Shows s name doc scene) (hsizes : c.TellsApart s) :
    ∃ dx dy, scene.nodes = (c.nodeFigures s name).map fun f => Apply.shown doc dx dy f.main := by
  obtain ⟨dx, dy, helements⟩ := h.elements
  have hisNode : ((·.isNode) ∘ Apply.shown doc dx dy : Element → Bool) = (·.isNode) := by
    funext e
    exact Apply.isNode_shown doc dx dy e
  refine ⟨dx, dy, ?_⟩
  rw [Scene.nodes, helements, List.filter_map, hisNode, hsizes.filter_isNode, List.map_map]
  rfl

/-- The ids of the nodes of the scene are those of the placed nodes. -/
theorem map_id_nodes (h : c.Shows s name doc scene) (hsizes : c.TellsApart s) :
    scene.nodes.map (·.id) = (c.placed s).map (·.node.id) := by
  obtain ⟨dx, dy, hnodes⟩ := h.nodes hsizes
  have hshown : (c.nodeFigures s name).map (fun f => (Apply.shown doc dx dy f.main).id) =
      (c.nodeFigures s name).map (·.main.id) := List.map_congr_left fun f _ => Apply.id_shown doc dx dy f.main
  have hown : (c.nodeFigures s name).map (·.main.id) = (c.nodeFigures s name).map fun f => f.label?.getD "" :=
    List.map_congr_left fun f hf => h.naming.id_shape f (List.mem_append_right _ hf)
  rw [hnodes, List.map_map]
  refine hshown.trans (hown.trans ?_)
  rw [nodeFigures, List.map_map]
  exact map_fst_zipIdx (fun p : PlacedNode => p.node.id) _

/-- The ends of the arrows of the scene are those of the edges. -/
theorem filterMap_ends (h : c.Shows s name doc scene) :
    scene.elements.filterMap (·.ends?) = s.edges.map fun e => (e.source, e.target) := by
  obtain ⟨dx, dy, helements⟩ := h.elements
  have hshown : scene.elements.filterMap (·.ends?) = (c.convert name s).filterMap (·.ends?) := by
    rw [helements, List.filterMap_map]
    exact List.filterMap_congr fun e _ => Apply.ends?_shown doc dx dy e
  have harrows : ∀ es : List Element, es.filterMap (·.ends?) = ((es.filter (·.isArrow)).map (·.ends?)).filterMap id := by
    intro es
    rw [List.filterMap_map, List.filterMap_filter]
    apply List.filterMap_congr
    intro e _
    cases harrow : e.isArrow with
    | false => simpa using Element.ends?_of_not_isArrow harrow
    | true => rfl
  rw [hshown, harrows, h.naming.ends_arrows h.sound, List.filterMap_map]
  exact congrFun (List.filterMap_eq_map (f := fun e : Skeleton.Edge => (e.source, e.target))) s.edges

/-- The text of a shape or an arrow, if it has one, shows the label that the document has for its id, or else what it was
made with. -/
theorem boundText? (h : c.Shows s name doc scene) {f : Figure} (hf : f ∈ c.figures s name) :
    scene.boundText? f.main.id = f.label?.map fun content => (Apply.labelOf? doc f.main.id).getD content := by
  obtain ⟨dx, dy, helements⟩ := h.elements
  have hnodup : ((c.figures s name).map (·.main.id)).Nodup := by
    rw [h.naming.map_id_figures]
    exact ownerIds_nodup h.sound
  have hcontainer : ((·.container? == some f.main.id) ∘ Apply.shown doc dx dy : Element → Bool) =
      (·.container? == some f.main.id) := by
    funext e
    simp
  rw [Scene.boundText?, helements, List.find?_map, hcontainer, ← List.head?_filter, convert_eq_flatMap,
    filter_container?_main container?_figures hnodup hf, Figure.text?]
  cases hl : f.label? with
  | none => rfl
  | some content =>
    have hid : name (f.place + 1) = textPrefix ++ f.main.id :=
      h.naming.id_text_eq h.sound h.owners f hf (by rw [hl]; rfl)
    rw [hid]
    exact Apply.text?_shown_label doc dx dy content f.main.id f.main.transform

end Shows

end Layout

/-! ## Comparing the canvas with its text -/

/-- The label that is put in for a node, if no group has its id. -/
theorem Apply.labelOf?_node {doc : Document} (hdisjoint : ∀ g ∈ doc.groupIds, g ∉ doc.nodeIds) {id : String}
    {n : Document.Node} (hn : doc.node? id = some n) : Apply.labelOf? doc id = some (n.label?.getD n.id) := by
  have hmem := List.mem_map.2 ⟨n, Document.mem_of_node? hn⟩
  have hnone : doc.groups.reverse.find? (·.id == id) = none := by
    rw [List.find?_eq_none]
    intro g hg heq
    have hid : g.id = id := by simpa using heq
    exact hdisjoint _ (List.mem_map.2 ⟨g, List.mem_reverse.1 hg, rfl⟩) (hid ▸ hmem)
  rw [Apply.labelOf?, hnone, hn]
  rfl

/-- A node that shows the label that the document has for it is not changed. -/
theorem Diff.update?_eq_none {doc : Document} {shown : Snapshot.Node} {n : Document.Node}
    (hn : doc.node? shown.id = some n) (hlabel : shown.label = n.label?.getD n.id) : Diff.update? doc shown = none := by
  rw [Diff.update?, hn, hlabel]
  cases hl : n.label? <;> simp [hl]

/-- Nothing has to change where the nodes and the pairs are the same and no label changes. -/
theorem Diff.isEmpty_ofDocument {s : Snapshot} {doc : Document} (hnodes : s.nodeIds.Perm doc.nodeIds)
    (hpairs : s.pairs = doc.pairs) (hlabels : ∀ n ∈ s.nodes, Diff.update? doc n = none) :
    (Diff.ofDocument s doc).isEmpty = true := by
  have hadd : doc.nodeIds.filter (!s.nodeIds.contains ·) = [] := by
    simp [hnodes.mem_iff]
  have hremove : s.nodeIds.filter (!doc.nodeIds.contains ·) = [] := by
    simp [hnodes.mem_iff]
  have hedges : doc.pairs.filter (!doc.pairs.contains ·) = [] := by
    simp
  have hupdate : s.nodes.filterMap (Diff.update? doc) = [] := List.filterMap_eq_nil_iff.2 hlabels
  rw [Diff.isEmpty, Diff.ofDocument, hpairs, hadd, hremove, hedges, hupdate]
  rfl

namespace Layout.Shows

variable {c : Layout} {doc : Document} {edgeIds : List String} {name : Nat → String} {scene : Scene} {p : Char → Prop}

/-- A snapshot has the nodes of the document that the scene shows. -/
theorem nodeIds_perm (h : c.Shows (Skeleton.ofDocument doc edgeIds) name doc scene)
    (hsizes : c.TellsApart (Skeleton.ofDocument doc edgeIds)) (text? : Option String) :
    (Snapshot.ofCanvas scene text?).nodeIds.Perm doc.nodeIds := by
  rw [Snapshot.nodeIds_ofCanvas, h.map_id_nodes hsizes, ← Skeleton.map_id_nodes_ofDocument doc edgeIds]
  exact c.map_id_placed_perm _

/-- A snapshot joins the pairs that the document joins. -/
theorem pairs_eq (h : c.Shows (Skeleton.ofDocument doc edgeIds) name doc scene)
    (hsizes : c.TellsApart (Skeleton.ofDocument doc edgeIds)) (hdoc : doc.WellFormed p)
    (hlength : edgeIds.length = doc.pairs.length) (text? : Option String) :
    (Snapshot.ofCanvas scene text?).pairs = doc.pairs := by
  have hids := h.nodeIds_perm hsizes text?
  rw [Snapshot.nodeIds_ofCanvas] at hids
  rw [Snapshot.pairs_ofCanvas, h.filterMap_ends, (Skeleton.map_edges_ofDocument hlength).2, List.filter_eq_self]
  rintro ⟨source, target⟩ hpair
  obtain ⟨e, he, heq⟩ := List.mem_map.1 hpair
  cases heq
  obtain ⟨hsource, htarget⟩ := hdoc.edge_ends e he
  simp only [Bool.and_eq_true, List.contains_iff_mem]
  exact ⟨hids.mem_iff.2 hsource, hids.mem_iff.2 htarget⟩

/-- The shape of a node has the id of a node of the document, and that is its text, too. -/
theorem exists_node (h : c.Shows (Skeleton.ofDocument doc edgeIds) name doc scene) {f : Convert.Figure}
    (hf : f ∈ c.nodeFigures (Skeleton.ofDocument doc edgeIds) name) :
    ∃ n ∈ doc.nodes, f.main.id = n.id ∧ f.label? = some n.id := by
  have hid : f.main.id = f.label?.getD "" := h.naming.id_shape f (List.mem_append_right _ hf)
  obtain ⟨⟨p, i⟩, hp, rfl⟩ := List.mem_map.1 hf
  have hplaced : p.node.id ∈ (c.placed (Skeleton.ofDocument doc edgeIds)).map (·.node.id) :=
    List.mem_map.2 ⟨p, List.fst_mem_of_mem_zipIdx hp, rfl⟩
  have hmem := (c.map_id_placed_perm _).mem_iff.1 hplaced
  rw [Skeleton.map_id_nodes_ofDocument] at hmem
  obtain ⟨n, hn, hnid⟩ := List.mem_map.1 hmem
  exact ⟨n, hn, hid.trans hnid.symm, congrArg some hnid.symm⟩

/-- A snapshot shows no label that the document would change. -/
theorem update?_eq_none (h : c.Shows (Skeleton.ofDocument doc edgeIds) name doc scene)
    (hsizes : c.TellsApart (Skeleton.ofDocument doc edgeIds)) (hdoc : doc.WellFormed p)
    (hdisjoint : ∀ g ∈ doc.groupIds, g ∉ doc.nodeIds) (text? : Option String) :
    ∀ n ∈ (Snapshot.ofCanvas scene text?).nodes, Diff.update? doc n = none := by
  intro shown hshown
  obtain ⟨dx, dy, hnodes⟩ := h.nodes hsizes
  rw [Snapshot.ofCanvas, hnodes, List.map_map] at hshown
  obtain ⟨f, hf, rfl⟩ := List.mem_map.1 hshown
  obtain ⟨n, hn, hid, hl⟩ := h.exists_node hf
  have hfound : doc.node? n.id = some n := Document.node?_of_mem hdoc.nodes_nodup hn
  have htext := h.boundText? (List.mem_append_left _ (List.mem_append_right _ hf))
  rw [hl, hid, Option.map_some, Apply.labelOf?_node hdisjoint hfound] at htext
  refine Diff.update?_eq_none (n := n) ?_ ?_
  · change doc.node? (Apply.shown doc dx dy f.main).id = some n
    rw [Apply.id_shown, hid, hfound]
  · change (scene.boundText? (Apply.shown doc dx dy f.main).id).getD "" = n.label?.getD n.id
    rw [Apply.id_shown, hid, htext]
    rfl

end Layout.Shows

/-! ## Putting a text on the canvas -/

/-- The elements that are made for a document have their own ids and labels and are moved alike. -/
theorem Apply.exists_of_elementsOf_eq_ok {convert : Skeleton → List Element} {view : Viewport} {doc : Document}
    {made : Remapped} (h : elementsOf convert view doc = .ok made) :
    ∃ edgeIds, allocateEdgeIds [] doc.pairs = .ok edgeIds ∧
      ∃ dx dy, made.elements =
        (remap (convert (Skeleton.ofDocument doc edgeIds)) (Skeleton.ofDocument doc edgeIds).intended).elements.map
          (shown doc dx dy) := by
  obtain ⟨edgeIds, hids, h⟩ := exists_of_bind_eq_ok h
  refine ⟨edgeIds, eq_ok_of_mapError_eq_ok hids, ?_⟩
  simp only at h
  split at h
  · cases h
  · cases h
    exact recentre_eq_map view doc _

/-- A text that has been put on a canvas is kept there, with the elements that were made for what it reads as. -/
theorem Applier.exists_of_apply_eq_ok {a : Applier σ} {now : Nat} {store : Store} {records : σ} {text : String}
    {applied : Applied σ} (h : a.apply now store records text = .ok applied) :
    ∃ made, Apply.elementsOf a.convert store.canvas.scene.viewport (Document.parse applied.outcome.diagramText) = .ok made ∧
      applied.store.canvas.scene.elements = made.elements ∧
      applied.store.canvas.diagramText? = some applied.outcome.diagramText := by
  obtain ⟨made, hmade, h⟩ := exists_of_bind_eq_ok h
  obtain ⟨kept, -, h⟩ := exists_of_bind_eq_ok h
  cases h
  exact ⟨made, hmade, rfl, rfl⟩

namespace Layout

open Whiteboard.Remap

/-- Where no id of a skeleton begins like that of a text, neither does any id that a shape or an arrow gets. -/
theorem not_prefix_ownerIds {c : Layout} {s : Skeleton} (hids : ∀ id ∈ s.ids, ¬ textPrefix.toList <+: id.toList)
    (hedges : ∀ id ∈ s.edges.map (·.id), id ≠ "text") : ∀ id ∈ c.ownerIds s, ¬ textPrefix.toList <+: id.toList := by
  intro id hid
  rcases List.mem_append.1 hid with hid | hid
  · exact hids id (List.mem_append_left _ (Layout.shapeIds_subset hid))
  · obtain ⟨edge, hedge, hvariant⟩ := Renaming.exists_isVariant_of_mem_grant hid
    exact not_prefix_of_isVariant (hids edge (List.mem_append_right _ hedge)) (hedges edge hedge) hvariant

/-- Then the id that is due to the text of one is not that of another. -/
theorem textId_notMem_ownerIds {c : Layout} {s : Skeleton}
    (howners : ∀ id ∈ c.ownerIds s, ¬ textPrefix.toList <+: id.toList) :
    ∀ id ∈ c.ownerIds s, textPrefix ++ id ∉ c.ownerIds s := by
  intro id _ hmem
  exact howners _ hmem (prefix_of_isVariant (isVariant_self _))

end Layout

/-- There are elements for a document whose edges can have ids, if anything is made for it. -/
theorem Apply.exists_elementsOf_eq_ok {convert : Skeleton → List Element} {doc : Document} {edgeIds : List String}
    (hedges : allocateEdgeIds [] doc.pairs = .ok edgeIds) (hne : convert (Skeleton.ofDocument doc edgeIds) ≠ [])
    (view : Viewport) : ∃ made, elementsOf convert view doc = .ok made := by
  have hempty : (convert (Skeleton.ofDocument doc edgeIds)).isEmpty = false := List.isEmpty_eq_false_iff.2 hne
  rw [elementsOf, hedges]
  simp only [Except.mapError, bind, Except.bind, hempty]
  exact ⟨_, rfl⟩

/-- A text with a node in it can be put on a canvas, if its edges can have ids and its record can be written. -/
theorem Applier.exists_apply_eq_ok (c : Layout) (fresh : Nat → String) (records : RecordStore σ) (key : String)
    (mode : ApplyMode) (now : Nat) (store : Store) (state : σ) (text : String) {edgeIds : List String}
    (hnodes : (Document.parse (Apply.textFor mode store.canvas text).1).nodes ≠ [])
    (hedges : allocateEdgeIds [] (Document.parse (Apply.textFor mode store.canvas text).1).pairs = .ok edgeIds)
    (hwrite : ∀ record, ∃ kept, records.write state key record = .ok kept) :
    ∃ applied, Applier.apply ⟨c.convert fresh, records, key, mode⟩ now store state text = .ok applied ∧
      applied.outcome.diagramText = (Apply.textFor mode store.canvas text).1 := by
  have hskeleton : (Skeleton.ofDocument (Document.parse (Apply.textFor mode store.canvas text).1) edgeIds).nodes ≠ [] := by
    rwa [Skeleton.ofDocument, ne_eq, List.map_eq_nil_iff]
  have hne : c.convert fresh (Skeleton.ofDocument (Document.parse (Apply.textFor mode store.canvas text).1) edgeIds) ≠ [] :=
    mt (c.convert_eq_nil_iff _).1 hskeleton
  obtain ⟨made, hmade⟩ := Apply.exists_elementsOf_eq_ok hedges hne store.canvas.scene.viewport
  obtain ⟨kept, hkept⟩ := hwrite ⟨made.elements, (Apply.textFor mode store.canvas text).1, now⟩
  simp only [Applier.apply, Transaction.begin, hmade, hkept, bind, Except.bind, Except.mapError]
  exact ⟨_, rfl, rfl⟩

section

open Whiteboard.Remap

/-- A scene of the elements that are made for a document shows it, if its shapes can be told apart and no shape and no
arrow has the id that is due to the text of another. -/
theorem Apply.exists_shows {c : Layout} {fresh : Nat → String} {view : Viewport} {doc : Document} {made : Remapped}
    {edgeIds : List String} {scene : Scene} (hmade : elementsOf (c.convert fresh) view doc = .ok made)
    (hscene : scene.elements = made.elements) (hedges : allocateEdgeIds [] doc.pairs = .ok edgeIds)
    (hs : (Skeleton.ofDocument doc edgeIds).IsSound) (hfresh : IsSupply (Skeleton.ofDocument doc edgeIds) fresh)
    (howners : ∀ id ∈ c.ownerIds (Skeleton.ofDocument doc edgeIds),
      textPrefix ++ id ∉ c.ownerIds (Skeleton.ofDocument doc edgeIds)) :
    ∃ name, c.Shows (Skeleton.ofDocument doc edgeIds) name doc scene := by
  obtain ⟨edgeIds', hedges', dx, dy, helements⟩ := exists_of_elementsOf_eq_ok hmade
  obtain rfl : edgeIds' = edgeIds := Except.ok.inj (hedges'.symm.trans hedges)
  obtain ⟨name, hname, hremap⟩ := Layout.elements_remap_convert (c := c) hs hfresh
  rw [← hscene, hremap] at helements
  exact ⟨name, hs, hname, howners, dx, dy, helements⟩

/-- The canvas shows its text. Whatever text is put on whatever canvas, in either mode: if that succeeds, then comparing the
canvas with the text that it keeps finds nothing to change, and the direction of the canvas is that of the text. This is so
if the groups of the text have distinct ids, none of them that of a node; if no id of a node, a group or an edge begins
like that of a text; if the elements are made with ids of their own; and if the sizes in the layout tell nodes from
containers. -/
theorem Applier.apply_realises {records : RecordStore σ} {state : σ} {store : Store} {applied : Applied σ} (c : Layout)
    (fresh : Nat → String) (key : String) (mode : ApplyMode) (now : Nat) (text : String) (edgeIds : List String)
    (happly : Applier.apply ⟨c.convert fresh, records, key, mode⟩ now store state text = .ok applied)
    (hgroups : (Document.parse applied.outcome.diagramText).groupIds.Nodup)
    (hdisjoint : ∀ g ∈ (Document.parse applied.outcome.diagramText).groupIds,
      g ∉ (Document.parse applied.outcome.diagramText).nodeIds)
    (hedges : allocateEdgeIds [] (Document.parse applied.outcome.diagramText).pairs = .ok edgeIds)
    (hids : ∀ id ∈ (Skeleton.ofDocument (Document.parse applied.outcome.diagramText) edgeIds).ids,
      ¬ textPrefix.toList <+: id.toList)
    (hfresh : IsSupply (Skeleton.ofDocument (Document.parse applied.outcome.diagramText) edgeIds) fresh)
    (hsizes : c.TellsApart (Skeleton.ofDocument (Document.parse applied.outcome.diagramText) edgeIds)) :
    let doc := Document.parse applied.outcome.diagramText
    let snapshot := Snapshot.ofCanvas applied.store.canvas.scene applied.store.canvas.diagramText?
    (Diff.between snapshot applied.outcome.diagramText).isEmpty = true ∧
    snapshot.nodeIds.Perm doc.nodeIds ∧ snapshot.pairs = doc.pairs ∧
    snapshot.direction = doc.direction?.getD .topDown := by
  intro doc snapshot
  obtain ⟨made, hmade, helements, hkept⟩ := Applier.exists_of_apply_eq_ok happly
  obtain ⟨hlength, hunderscores⟩ := allocateEdgeIds_spec hedges
  have hdoc := Document.wellFormed_parse_any applied.outcome.diagramText
  have hs : (Skeleton.ofDocument doc edgeIds).IsSound := Skeleton.isSound_ofDocument hdoc hgroups hdisjoint
  have hnames : ∀ id ∈ (Skeleton.ofDocument doc edgeIds).edges.map (·.id), id ≠ "text" := by
    rw [(Skeleton.map_edges_ofDocument hlength).1]
    rintro id hid rfl
    exact absurd (hunderscores _ hid) (by decide)
  have howners := Layout.textId_notMem_ownerIds (c := c) (Layout.not_prefix_ownerIds hids hnames)
  obtain ⟨name, hshows⟩ := Apply.exists_shows hmade helements hedges hs hfresh howners
  have hnodes := hshows.nodeIds_perm hsizes applied.store.canvas.diagramText?
  have hpairs := hshows.pairs_eq hsizes hdoc hlength applied.store.canvas.diagramText?
  have hlabels := hshows.update?_eq_none hsizes hdoc hdisjoint applied.store.canvas.diagramText?
  refine ⟨Diff.isEmpty_ofDocument hnodes hpairs hlabels, hnodes, hpairs, ?_⟩
  change (applied.store.canvas.diagramText?.bind fun text => (Document.parse text).direction?).getD .topDown = _
  rw [hkept]
  rfl

/-- A canvas with one shape and its text. -/
def sketchStore : Store :=
  let box : Transform := { x := 0, y := 0, width := 160, height := 60 }
  Store.ofScene { elements := [{ id := "a", kind := .rectangle, transform := box }, Convert.labelOf "text_a" "Old" "a" box] }

/-- A text with a group, two edges side by side and an edge from a node to itself. -/
def sketchText : String :=
  "flowchart LR\nsubgraph g [Team]\n  b\x7bTwo\x7d\n  c[Three]\nend\na --> c\na --> |twice| c\nc --> c\n"

/-- What is on the canvas once that text has been merged with it. -/
def sketchMerged : String :=
  "flowchart LR\n    a[\"Old\"]\n    subgraph g[\"Team\"]\n        b\x7b\"Two\"\x7d\n        c[\"Three\"]\n    end\n" ++
  "    a --> c\n    a -->|twice| c\n    c --> c\n"

/-- What that reads as. -/
def sketchDocument : Document where
  direction? := some .leftRight
  nodes := [⟨"a", 2, some ⟨"Old", .rectangle, none⟩⟩, ⟨"b", 4, some ⟨"Two", .decision, some "g"⟩⟩,
    ⟨"c", 5, some ⟨"Three", .rectangle, some "g"⟩⟩]
  edges := [⟨"a", "c", none, false, 7⟩, ⟨"a", "c", some "twice", false, 8⟩, ⟨"c", "c", none, false, 9⟩]
  groups := [⟨"g", "Team", 3⟩]
  declarations := [⟨"a", "Old", .rectangle, 2⟩, ⟨"b", "Two", .decision, 4⟩, ⟨"c", "Three", .rectangle, 5⟩]

/-- The text that is applied to the sketch. -/
theorem textFor_sketchText : (Apply.textFor .incremental sketchStore.canvas sketchText).1 = sketchMerged := by
  decide +kernel

/-- The text that is applied to the sketch is read as the sketched document. -/
theorem parse_sketchMerged : Document.parse sketchMerged = sketchDocument := by
  decide +kernel

/-- A sketch whose text adds to what is on the canvas is realised. Its nodes come in order already, so sorting them does
nothing. -/
theorem Applier.apply_realises_sketch :
    let edgeIds := ["a_c", "a_c_2", "c_c"]
    let s := Skeleton.ofDocument (Document.parse sketchMerged) edgeIds
    (Document.parse sketchMerged).groupIds.Nodup ∧
    (∀ g ∈ (Document.parse sketchMerged).groupIds, g ∉ (Document.parse sketchMerged).nodeIds) ∧
    allocateEdgeIds [] (Document.parse sketchMerged).pairs = .ok edgeIds ∧
    (∀ id ∈ s.ids, ¬ textPrefix.toList <+: id.toList) ∧ IsSupply s numberedId ∧ ({} : Layout).TellsApart s ∧
    ∃ applied,
      Applier.apply ⟨({} : Layout).convert numberedId, RecordStore.memory, "sketch", .incremental⟩ 0 sketchStore [] sketchText =
        .ok applied ∧
      applied.outcome.diagramText = sketchMerged ∧
      (Diff.between (Snapshot.ofCanvas applied.store.canvas.scene applied.store.canvas.diagramText?) sketchMerged).isEmpty = true := by
  rw [parse_sketchMerged]
  intro edgeIds s
  have hgroups : sketchDocument.groupIds.Nodup := by decide +kernel
  have hdisjoint : ∀ g ∈ sketchDocument.groupIds, g ∉ sketchDocument.nodeIds := by decide +kernel
  have hedges : allocateEdgeIds [] sketchDocument.pairs = .ok edgeIds := by decide +kernel
  have hids : ∀ id ∈ s.ids, ¬ textPrefix.toList <+: id.toList := by decide +kernel
  have hsupply : IsSupply s numberedId := isSupply_numberedId (by decide +kernel) 0
  have hsizes : ({} : Layout).TellsApart s := by
    refine ⟨by decide +kernel, ?_⟩
    rw [Layout.containers, Layout.placed, Layout.entries, List.mergeSort_of_pairwise (by decide +kernel)]
    decide +kernel
  have hread : Document.parse (Apply.textFor .incremental sketchStore.canvas sketchText).1 = sketchDocument := by
    rw [textFor_sketchText, parse_sketchMerged]
  have hnodes : (Document.parse (Apply.textFor .incremental sketchStore.canvas sketchText).1).nodes ≠ [] := by
    rw [hread]
    exact List.cons_ne_nil _ _
  have hpairs : allocateEdgeIds [] (Document.parse (Apply.textFor .incremental sketchStore.canvas sketchText).1).pairs =
      .ok edgeIds := by
    rw [hread]
    exact hedges
  obtain ⟨applied, happly, hmerged⟩ := Applier.exists_apply_eq_ok {} numberedId RecordStore.memory "sketch" .incremental 0
    sketchStore [] sketchText hnodes hpairs fun _ => ⟨_, rfl⟩
  rw [textFor_sketchText] at hmerged
  have hrealises := Applier.apply_realises {} numberedId "sketch" .incremental 0 sketchText edgeIds happly
  rw [hmerged, parse_sketchMerged] at hrealises
  exact ⟨hgroups, hdisjoint, hedges, hids, hsupply, hsizes, applied, happly, hmerged,
    (hrealises hgroups hdisjoint hedges hids hsupply hsizes).1⟩

end

end Whiteboard
