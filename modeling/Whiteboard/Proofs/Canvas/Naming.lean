import Whiteboard.Proofs.Canvas.Remapping
import Whiteboard.Proofs.Diagram.WellFormed
import Whiteboard.Proofs.Ids.Edge

/-!
# Elements that have the ids that are due to them

Main statement: whatever ids the elements of a document are made with, after remapping each has the id it stands for, and
nothing is left of the ids it was made with (`remap_convert_parse`).

What remapping gives is a conversion with other ids (`Layout.elements_remap_convert`), so its shapes, arrows and texts are
found among its figures.
-/

namespace Whiteboard

open Whiteboard.Text

namespace Layout

open Whiteboard.Convert Whiteboard.Remap

variable {c : Layout} {s : Skeleton} {name : Nat → String}

/-! ## Shapes -/

/-- A main element is a shape or an arrow. -/
theorem isShape_or_isArrow_figures {fresh : Nat → String} {f : Figure} (hf : f ∈ c.figures s fresh) :
    f.main.isShape = true ∨ f.main.isArrow = true := by
  rw [figures_eq] at hf
  rcases List.mem_append.1 hf with hf | hf
  · exact .inl (c.isShape_shapeFigures s hf)
  · exact .inr (c.isArrow_arrowFigures s hf).1

theorem text?_figures {fresh : Nat → String} {f : Figure} (hf : f ∈ c.figures s fresh) : f.main.text? = none :=
  (isShape_or_isArrow_figures hf).elim (fun h => (Element.of_isShape h).2.1) fun h => (Element.of_isArrow h).2.1

/-- There is one figure for every shape. -/
theorem length_shapeFigures (fresh : Nat → String) : (c.shapeFigures s fresh).length = (c.shapeIds s).length := by
  have h := congrArg List.length (c.map_own_shapeFigures s fresh)
  rwa [List.length_map] at h

/-- The main elements have the ids that are due to them. -/
theorem IsNaming.map_id_figures (h : c.IsNaming s name) : (c.figures s name).map (·.main.id) = c.ownerIds s := by
  rw [Layout.map_id_figures, List.map_map]
  exact h.owners

/-- Under a naming the shapes have their ids, and so have the arrows. -/
theorem IsNaming.map_id_shapes_arrows (h : c.IsNaming s name) :
    (c.shapeFigures s name).map (·.main.id) = c.shapeIds s ∧ (c.arrowFigures s name).map (·.main.id) = c.arrowIds s := by
  have hall := h.map_id_figures
  rw [figures_eq, List.map_append, ownerIds] at hall
  exact List.append_inj hall (by rw [List.length_map, length_shapeFigures])

/-- The shapes of a conversion are the main elements of containers and nodes. -/
theorem filter_isShape_convert (fresh : Nat → String) :
    (c.convert fresh s).filter (·.isShape) = (c.shapeFigures s fresh).map (·.main) := by
  have hshapes : (c.shapeFigures s fresh).filter (·.main.isShape) = c.shapeFigures s fresh :=
    List.filter_eq_self.2 fun f hf => c.isShape_shapeFigures s hf
  have harrows : (c.arrowFigures s fresh).filter (·.main.isShape) = [] :=
    List.filter_eq_nil_iff.2 fun f hf => by simp [(c.isArrow_arrowFigures s hf).2]
  rw [convert_eq_flatMap, filter_elements (by simp), figures_eq, List.filter_append, hshapes, harrows, List.append_nil]

/-- The arrows of a conversion are the main elements of edges. -/
theorem filter_isArrow_convert (fresh : Nat → String) :
    (c.convert fresh s).filter (·.isArrow) = (c.arrowFigures s fresh).map (·.main) := by
  have hshapes : (c.shapeFigures s fresh).filter (·.main.isArrow) = [] :=
    List.filter_eq_nil_iff.2 fun f hf => by simp [(Element.of_isShape (c.isShape_shapeFigures s hf)).1]
  have harrows : (c.arrowFigures s fresh).filter (·.main.isArrow) = c.arrowFigures s fresh :=
    List.filter_eq_self.2 fun f hf => (c.isArrow_arrowFigures s hf).1
  rw [convert_eq_flatMap, filter_elements (by simp), figures_eq, List.filter_append, hshapes, harrows, List.nil_append]

/-- The boxes of the shapes: those of the containers, then those of the nodes. -/
theorem map_transform_shapeFigures (fresh : Nat → String) :
    (c.shapeFigures s fresh).map (·.main.transform) =
      (c.containers s).map (·.2) ++ (c.placed s).map (·.transform) := by
  rw [shapeFigures, List.map_append, containerFigures, nodeFigures, List.map_map, List.map_map]
  congr 1
  · exact map_fst_zipIdx (fun g : String × Transform => g.2) _
  · exact map_fst_zipIdx (fun p : PlacedNode => p.transform) _

/-- Every container has the id of its group, and every shape of a node that of its node. -/
theorem IsNaming.shapes (h : c.IsNaming s name) :
    ((c.convert name s).filter (·.isShape)).map (fun e => (e.id, e.transform)) =
      c.containers s ++ (c.placed s).map fun p => (p.node.id, p.transform) := by
  have hzip : ∀ figs : List Figure, figs.map (fun f => (f.main.id, f.main.transform)) =
      (figs.map (·.main.id)).zip (figs.map (·.main.transform)) := fun figs => List.zip_map'.symm
  have hcontainers : c.containers s = ((c.containers s).map (·.1)).zip ((c.containers s).map (·.2)) := by
    rw [List.zip_map']
    exact (List.map_id _).symm
  have hplaced : (c.placed s).map (fun p => (p.node.id, p.transform)) =
      ((c.placed s).map (·.node.id)).zip ((c.placed s).map (·.transform)) := List.zip_map'.symm
  rw [filter_isShape_convert, List.map_map]
  change (c.shapeFigures s name).map (fun f => (f.main.id, f.main.transform)) = _
  rw [hzip, h.map_id_shapes_arrows.1, map_transform_shapeFigures, shapeIds, List.zip_append (by simp), ← hcontainers,
    ← hplaced]

/-- Every shape has the id in its text. -/
theorem IsNaming.id_shape (h : c.IsNaming s name) : ∀ f ∈ c.shapeFigures s name, f.main.id = f.label?.getD "" :=
  List.map_inj_left.1 (h.map_id_shapes_arrows.1.trans (c.map_own_shapeFigures s name).symm)

/-! ## Arrows -/

/-- The arrows join what the edges join. -/
theorem IsNaming.ends_arrows (h : c.IsNaming s name) (hs : s.IsSound) :
    ((c.convert name s).filter (·.isArrow)).map (·.ends?) = s.edges.map fun e => some (e.source, e.target) := by
  have hedges : s.edges.map (fun e => some (e.source, e.target)) =
      (c.arrows s).map fun x => some (x.2.edge.source, x.2.edge.target) := by
    rw [← map_edge_arrows_of_isSound (c := c) hs, List.map_map]
    rfl
  rw [filter_isArrow_convert, arrowFigures, hedges, List.map_map, List.map_map]
  apply List.map_congr_left
  rintro ⟨n, e⟩ harrow
  obtain ⟨hsource, htarget⟩ := Layout.ends_arrows h.id_shape harrow
  rw [← hsource, ← htarget]
  rfl

/-- Every arrow has a variant of the id of its edge. -/
theorem IsNaming.id_arrows (h : c.IsNaming s name) :
    List.Forall₂ IsVariant (s.edges.map (·.id)) (((c.convert name s).filter (·.isArrow)).map (·.id)) := by
  rw [filter_isArrow_convert, List.map_map]
  change List.Forall₂ IsVariant _ ((c.arrowFigures s name).map (·.main.id))
  rw [h.map_id_shapes_arrows.2]
  exact Renaming.forall₂_isVariant_grant _ _

/-! ## Texts -/

/-- What is made of the labelled figures depends on these alone. -/
theorem filterMap_label? (g : Figure → α) (figs : List Figure) :
    figs.filterMap (fun f => f.label?.map fun _ => g f) = (figs.filter (·.label?.isSome)).map g := by
  induction figs with
  | nil => rfl
  | cons f figs ih => cases hl : f.label? <;> simp [hl, ih]

/-- What the texts wish for, by their figures. -/
theorem IsNaming.textWants_eq (h : c.IsNaming s name) :
    c.textWants s = ((c.figures s name).filter (·.label?.isSome)).map fun f => textPrefix ++ f.main.id := by
  rw [← filterMap_label?, textWants, ← h.map_id_figures, ← c.map_toSlot_figures s name, List.zip_map',
    List.filterMap_map]
  rfl

/-- The ids of the texts, by their figures. -/
theorem map_name_textPlaces (name : Nat → String) :
    (c.textPlaces s).map name = ((c.figures s name).filter (·.label?.isSome)).map fun f => name (f.place + 1) := by
  rw [← filterMap_label?, textPlaces, ← c.map_toSlot_figures s name, List.filterMap_map, List.map_filterMap]
  apply List.filterMap_congr
  intro f _
  cases hl : f.label? <;> simp [hl]

/-- The text of a figure has an id made from that of its main element. -/
theorem IsNaming.id_text (h : c.IsNaming s name) :
    ∀ f ∈ c.figures s name, f.label?.isSome = true → IsVariant (textPrefix ++ f.main.id) (name (f.place + 1)) := by
  have hgranted := Renaming.forall₂_isVariant_grant (c.ownerIds s) (c.textWants s)
  rw [← textIds, ← h.texts, map_name_textPlaces, h.textWants_eq, List.forall₂_map_left_iff, List.forall₂_map_right_iff,
    List.forall₂_same] at hgranted
  intro f hf hlabel
  exact hgranted f (List.mem_filter.2 ⟨hf, hlabel⟩)

/-- A text of a conversion is the text of a figure. -/
theorem exists_figure_of_text {fresh : Nat → String} {e : Element} (he : e ∈ c.convert fresh s) (htext : e.text?.isSome = true) :
    ∃ f ∈ c.figures s fresh, ∃ content, f.label? = some content ∧
      e = labelOf (fresh (f.place + 1)) content f.main.id f.main.transform := by
  obtain ⟨f, hf, rfl | htext⟩ := (c.mem_convert_iff s).1 he
  · rw [text?_figures hf] at htext
    cases htext
  · exact ⟨f, hf, htext⟩

/-- Every text is bound to an element and has an id made from that of the element. -/
theorem IsNaming.texts_spec (h : c.IsNaming s name) {e : Element} (he : e ∈ c.convert name s) (htext : e.text?.isSome = true) :
    ∃ owner, e.container? = some owner ∧ IsVariant (textPrefix ++ owner) e.id := by
  obtain ⟨f, hf, content, hl, rfl⟩ := exists_figure_of_text he htext
  exact ⟨f.main.id, rfl, h.id_text f hf (by rw [hl]; rfl)⟩

/-! ## No other ids -/

/-- Every id that is due is one that may be given. -/
theorem IsNaming.derives (h : c.IsNaming s name) : ∀ n ∈ c.places s, s.Derives (name n) := by
  intro n hn
  rcases List.mem_append.1 ((c.places_perm s).mem_iff.2 hn) with hn | hn
  · obtain ⟨t, ht, rfl⟩ := List.mem_map.1 hn
    have howner : name t.place ∈ c.ownerIds s := by
      rw [← h.owners]
      exact List.mem_map.2 ⟨t, ht, rfl⟩
    obtain ⟨base, hbase, hvariant⟩ := exists_base_of_mem_ownerIds howner
    exact ⟨base, hbase, _, hvariant, Or.inl rfl⟩
  · have htext : name n ∈ c.textIds s := by
      rw [← h.texts]
      exact List.mem_map.2 ⟨n, hn, rfl⟩
    obtain ⟨wanted, hwanted, hvariant⟩ := Renaming.exists_isVariant_of_mem_grant htext
    obtain ⟨owner, howner, rfl⟩ := mem_textWants hwanted
    obtain ⟨base, hbase, hbaseVariant⟩ := exists_base_of_mem_ownerIds howner
    exact ⟨base, hbase, owner, hbaseVariant, Or.inr hvariant⟩

/-- No id from the supply is left. -/
theorem IsNaming.not_generated (h : c.IsNaming s name) {fresh : Nat → String} (hfresh : IsSupply s fresh) {e : Element}
    (he : e ∈ c.convert name s) : ∀ id ∈ e.ids, ¬ Generated fresh id := by
  rintro id hid ⟨m, rfl⟩
  obtain ⟨n, hn, heq⟩ := c.ids_convert s he _ hid
  exact hfresh.apart m (heq ▸ h.derives n hn)

end Layout

/-! ## Documents -/

namespace Skeleton

/-- The nodes to draw are those of the document. -/
theorem map_id_nodes_ofDocument (doc : Document) (edgeIds : List String) :
    (ofDocument doc edgeIds).nodes.map (·.id) = doc.nodeIds := by
  rw [ofDocument, List.map_map]
  rfl

/-- The edges of a skeleton: the ids, and the pairs that they are for. -/
theorem map_edges_ofDocument {doc : Document} {edgeIds : List String} (h : edgeIds.length = doc.pairs.length) :
    (ofDocument doc edgeIds).edges.map (·.id) = edgeIds ∧
    (ofDocument doc edgeIds).edges.map (fun e => (e.source, e.target)) = doc.pairs := by
  rw [Document.pairs, List.length_map] at h
  rw [ofDocument, List.map_map, List.map_map]
  refine ⟨List.map_snd_zip (Nat.le_of_eq h), ?_⟩
  have hedges : (doc.edges.zip edgeIds).map Prod.fst = doc.edges := List.map_fst_zip (Nat.le_of_eq h.symm)
  have hpairs := congrArg (List.map fun e => (e.source, e.target)) hedges
  rw [List.map_map] at hpairs
  exact hpairs

/-- What a text reads as makes a skeleton whose shapes can be told apart, if its groups can. -/
theorem isSound_ofDocument {p : Char → Prop} {doc : Document} (hdoc : doc.WellFormed p) (hgroups : doc.groupIds.Nodup)
    (hdisjoint : ∀ g ∈ doc.groupIds, g ∉ doc.nodeIds) {edgeIds : List String} :
    (ofDocument doc edgeIds).IsSound := by
  refine ⟨?_, ?_, ?_⟩
  · rw [map_id_nodes_ofDocument]
    exact hdoc.nodes_nodup.append hgroups fun id hn hg => hdisjoint id hg hn
  · rw [map_id_nodes_ofDocument]
    intro id hid
    rcases List.mem_append.1 hid with hid | hid
    · obtain ⟨n, hn, rfl⟩ := List.mem_map.1 hid
      exact (hdoc.node n hn).id_word.isDecoded.trimmed
    · obtain ⟨g, hg, rfl⟩ := List.mem_map.1 hid
      exact (hdoc.group_id g hg).trimmed
  · rw [map_id_nodes_ofDocument]
    intro e he
    obtain ⟨⟨edge, id⟩, hzip, rfl⟩ := List.mem_map.1 he
    exact hdoc.edge_ends edge (List.of_mem_zip hzip).1

end Skeleton

section

open Whiteboard.Remap

/-- The ids that are derived from words hold nothing but identifier characters. -/
theorem isIdChar_of_derives {s : Skeleton} (hwords : ∀ id ∈ s.ids, IsWord id) {id : String}
    (h : s.Derives id) : ∀ c ∈ id.toList, isIdChar c = true := by
  obtain ⟨base, hbase, owner, howner, h⟩ := h
  have howner := isIdChar_of_isVariant (hwords base hbase).2 howner
  rcases h with rfl | h
  · exact howner
  · refine isIdChar_of_isVariant ?_ h
    intro c hc
    rw [String.toList_append, List.mem_append] at hc
    rcases hc with hc | hc
    · exact List.all_eq_true.1 (by decide : textPrefix.toList.all isIdChar = true) c hc
    · exact howner c hc

/-- Numbered ids, from any number on, are a supply for a skeleton whose ids are made of identifier characters. -/
theorem isSupply_numberedId {s : Skeleton} (hwords : ∀ id ∈ s.ids, IsWord id) (first : Nat) :
    IsSupply s fun n => numberedId (n + first) := by
  refine ⟨fun a b h => Nat.add_right_cancel (numberedId_injective h), fun n h => ?_⟩
  have hdash := isIdChar_of_derives hwords h '-' (by simp [numberedId])
  exact absurd hdash (by decide)

/-- Ids restored. Let the groups of a text have distinct ids, none of them that of a node, and let there be an id for every
edge. Whatever the sizes of the layout are, and whatever ids the elements are made with, after remapping each container has
the id of its group and each shape of a node that of its node; the arrows join the pairs of the document, in order, and
each has a variant of the id of its edge; each text has an id made from that of the element it is bound to; and no id that
an element was made with is left anywhere. Nor does anything depend on those ids. -/
theorem remap_convert_parse (text : String) (edgeIds : List String) (c : Layout)
    (hgroups : (Document.parse text).groupIds.Nodup)
    (hdisjoint : ∀ g ∈ (Document.parse text).groupIds, g ∉ (Document.parse text).nodeIds)
    (hedges : allocateEdgeIds [] (Document.parse text).pairs = .ok edgeIds) :
    let doc := Document.parse text
    let s := Skeleton.ofDocument doc edgeIds
    let made := fun fresh => (remap (c.convert fresh s) s.intended).elements
    ((c.placed s).map (·.node.id)).Perm doc.nodeIds ∧
    (∀ fresh, IsSupply s fresh →
      ((made fresh).filter (·.isShape)).map (fun e => (e.id, e.transform)) =
        c.containers s ++ (c.placed s).map (fun p => (p.node.id, p.transform)) ∧
      ((made fresh).filter (·.isArrow)).map (·.ends?) = doc.pairs.map some ∧
      List.Forall₂ IsVariant edgeIds (((made fresh).filter (·.isArrow)).map (·.id)) ∧
      (∀ e ∈ made fresh, e.text?.isSome = true →
        textPrefix.toList <+: e.id.toList ∧ ∃ owner, e.container? = some owner ∧ IsVariant (textPrefix ++ owner) e.id) ∧
      ∀ e ∈ made fresh, ∀ id ∈ e.ids, ¬ Generated fresh id) ∧
    ∀ fresh fresh', IsSupply s fresh → IsSupply s fresh' → made fresh = made fresh' := by
  intro doc s made
  have hs : s.IsSound := Skeleton.isSound_ofDocument (Document.wellFormed_parse_any text) hgroups hdisjoint
  obtain ⟨hids, hpairs⟩ := Skeleton.map_edges_ofDocument (allocateEdgeIds_spec hedges).1
  have hmade : ∀ fresh, IsSupply s fresh → ∃ name, c.IsNaming s name ∧ made fresh = c.convert name s := fun fresh hfresh =>
    Layout.elements_remap_convert hs hfresh
  refine ⟨?_, ?_, ?_⟩
  · have hperm := c.map_id_placed_perm s
    rwa [Skeleton.map_id_nodes_ofDocument] at hperm
  · intro fresh hfresh
    obtain ⟨name, hname, heq⟩ := hmade fresh hfresh
    rw [heq]
    refine ⟨hname.shapes, ?_, ?_, ?_, ?_⟩
    · rw [hname.ends_arrows hs, ← hpairs, List.map_map]
      rfl
    · have harrows := hname.id_arrows
      rwa [hids] at harrows
    · intro e he htext
      obtain ⟨owner, hbound, hvariant⟩ := hname.texts_spec he htext
      exact ⟨prefix_of_isVariant hvariant, owner, hbound, hvariant⟩
    · exact fun e he => hname.not_generated hfresh he
  · intro fresh fresh' hfresh hfresh'
    obtain ⟨name, hname, heq⟩ := hmade fresh hfresh
    obtain ⟨name', hname', heq'⟩ := hmade fresh' hfresh'
    rw [heq, heq']
    exact c.convert_congr s (hname.eq_on_places hname')

/-- A text whose edges wish for ids that are taken: two run side by side, and one has the id of a node. -/
def crowdedText : String := "flowchart TD\nsubgraph g\n  a[One]\nend\na --> b\na --> |twice| b\nb --> b\na_b --> a\n"

/-- Every element gets its id, whichever ids were made. -/
theorem remap_convert_parse_crowded :
    (Document.parse crowdedText).groupIds.Nodup ∧
    (∀ g ∈ (Document.parse crowdedText).groupIds, g ∉ (Document.parse crowdedText).nodeIds) ∧
    allocateEdgeIds [] (Document.parse crowdedText).pairs = .ok ["a_b", "a_b_2", "b_b", "a_b_a"] ∧
    (let s := Skeleton.ofDocument (Document.parse crowdedText) ["a_b", "a_b_2", "b_b", "a_b_a"]
    let made := fun fresh => (remap (({} : Layout).convert fresh s) s.intended).elements
    IsSupply s numberedId ∧ IsSupply s (fun n => numberedId (n + 7)) ∧
    ((made numberedId).filter (·.isArrow)).map (·.ends?) =
      [some ("a", "b"), some ("a", "b"), some ("b", "b"), some ("a_b", "a")] ∧
    made numberedId = made fun n => numberedId (n + 7)) := by
  have hgroups : (Document.parse crowdedText).groupIds.Nodup := by decide +kernel
  have hdisjoint : ∀ g ∈ (Document.parse crowdedText).groupIds, g ∉ (Document.parse crowdedText).nodeIds := by
    decide +kernel
  have hedges : allocateEdgeIds [] (Document.parse crowdedText).pairs = .ok ["a_b", "a_b_2", "b_b", "a_b_a"] := by
    decide +kernel
  have hwords : ∀ id ∈ (Skeleton.ofDocument (Document.parse crowdedText) ["a_b", "a_b_2", "b_b", "a_b_a"]).ids,
      IsWord id := by
    decide +kernel
  have hsupply := isSupply_numberedId hwords 0
  have hsupply' := isSupply_numberedId hwords 7
  obtain ⟨-, hmade, hequal⟩ := remap_convert_parse crowdedText _ {} hgroups hdisjoint hedges
  refine ⟨hgroups, hdisjoint, hedges, hsupply, hsupply', ?_, hequal _ _ hsupply hsupply'⟩
  exact (hmade _ hsupply).2.1.trans (by decide +kernel)

end

end Whiteboard
