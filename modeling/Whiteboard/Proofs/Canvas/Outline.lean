import Whiteboard.Proofs.Canvas.Realisation

/-!
# The outlines on a canvas

What a snapshot reads of a shape itself is its id, its kind and where it lies. Main statement: on a canvas that was made
from a document these are the containers and the placed nodes of the layout, all moved alike
(`Apply.exists_draws`).
-/

namespace Whiteboard

namespace Element

/-- An element without what is bound to it. -/
def outline (e : Element) : Element := { e with bound := [], groupIds := [] }

/-- What only shapes can be is looked for among the shapes. -/
theorem filter_filter_isShape {q : Element → Bool} (hq : ∀ e, e.isShape = false → q e = false) (es : List Element) :
    (es.filter (·.isShape)).filter q = es.filter q := by
  rw [List.filter_filter]
  apply List.filter_congr
  intro e _
  cases hshape : e.isShape with
  | false => rw [hq e hshape, Bool.and_false]
  | true => rw [Bool.and_true]

end Element

namespace Apply

@[simp] theorem transform_relabel (doc : Document) (e : Element) : (relabel doc e).transform = e.transform := by
  rcases relabel_eq doc e with h | ⟨content, h⟩
  · rw [h]
  · rw [h, withContent]
    split <;> rfl

/-- A shape is only moved. -/
theorem shown_of_isShape {e : Element} (h : e.isShape = true) (doc : Document) (dx dy : Float32) :
    shown doc dx dy e = { e with transform := e.transform.moved dx dy } := by
  have hsame : relabel doc e = e := by
    rcases relabel_eq doc e with hrelabel | ⟨content, hrelabel⟩
    · exact hrelabel
    · rw [hrelabel, withContent]
      cases hkind : e.kind with
      | text content container? fontSize => simp [Element.isShape, hkind] at h
      | _ => rfl
  rw [shown, hsame]

/-- How far elements are moved into the middle of the view: as far as the middle of the box around them is from there. -/
theorem recentre_map_relabel (view : Viewport) (doc : Document) {es : List Element} (h : es ≠ []) :
    ∃ box, Scene.boundingBox? es = some box ∧ Scene.recentre view (es.map (relabel doc)) =
      es.map (shown doc (view.center.x - box.center.x) (view.center.y - box.center.y)) := by
  have htransforms : Scene.boundingBox? (es.map (relabel doc)) = Scene.boundingBox? es := by
    rw [Scene.boundingBox?, List.map_map, Scene.boundingBox?]
    congr 1
    exact List.map_congr_left fun e _ => transform_relabel doc e
  cases hbox : Scene.boundingBox? es with
  | none =>
    cases es with
    | nil => exact absurd rfl h
    | cons e es => cases hbox
  | some box =>
    refine ⟨box, rfl, ?_⟩
    rw [Scene.recentre, htransforms, hbox]
    exact List.map_map

/-- The elements that are made for a document, and how far they are moved. -/
theorem exists_box_of_elementsOf_eq_ok {convert : Skeleton → List Element} {view : Viewport} {doc : Document}
    {made : Remapped} (h : elementsOf convert view doc = .ok made) :
    ∃ edgeIds, allocateEdgeIds [] doc.pairs = .ok edgeIds ∧
      let es := (remap (convert (Skeleton.ofDocument doc edgeIds)) (Skeleton.ofDocument doc edgeIds).intended).elements
      ∃ box, Scene.boundingBox? es = some box ∧
        made.elements = es.map (shown doc (view.center.x - box.center.x) (view.center.y - box.center.y)) := by
  obtain ⟨edgeIds, hids, h⟩ := exists_of_bind_eq_ok h
  refine ⟨edgeIds, eq_ok_of_mapError_eq_ok hids, ?_⟩
  simp only at h
  split at h
  · cases h
  · rename_i hne
    have hmade : (remap (convert (Skeleton.ofDocument doc edgeIds))
        (Skeleton.ofDocument doc edgeIds).intended).elements ≠ [] := by
      rw [remap, ne_eq, List.map_eq_nil_iff]
      exact fun hnil => hne (by rw [hnil]; rfl)
    obtain ⟨box, hbox, hmoved⟩ := recentre_map_relabel view doc hmade
    cases h
    exact ⟨box, hbox, hmoved⟩

/-- There are elements for a document, or it is not put on a canvas. -/
theorem elements_ne_nil {convert : Skeleton → List Element} {view : Viewport} {doc : Document} {made : Remapped}
    (h : elementsOf convert view doc = .ok made) : made.elements ≠ [] := by
  obtain ⟨edgeIds, -, box, hbox, helements⟩ := exists_box_of_elementsOf_eq_ok h
  rw [helements, ne_eq, List.map_eq_nil_iff]
  intro hnil
  rw [hnil] at hbox
  cases hbox

end Apply

namespace Layout

open Whiteboard.Convert

variable {c : Layout} {s : Skeleton} {name : Nat → String}

/-- The outline of a container that is moved. -/
def containerOutline (dx dy : Float32) (g : String × Transform) : Element :=
  { id := g.1, kind := .rectangle, transform := g.2.moved dx dy }

/-- The outline of a node that is moved. -/
def nodeOutline (dx dy : Float32) (p : PlacedNode) : Element :=
  { id := p.node.id, kind := kindOf p.node.shape, transform := p.transform.moved dx dy }

/-- The outlines of a layout that is moved: those of the containers, then those of the nodes. -/
def outlines (c : Layout) (s : Skeleton) (dx dy : Float32) : List Element :=
  (c.containers s).map (containerOutline dx dy) ++ (c.placed s).map (nodeOutline dx dy)

/-- The outlines of the shapes in a scene are those of a layout. -/
def Draws (c : Layout) (s : Skeleton) (dx dy : Float32) (scene : Scene) : Prop :=
  (scene.elements.filter (·.isShape)).map (·.outline) = c.outlines s dx dy

/-- Where every element has the id that is due to it, so have the outlines. -/
theorem IsNaming.draws (h : c.IsNaming s name) {doc : Document} {dx dy : Float32} {scene : Scene}
    (helements : scene.elements = (c.convert name s).map (Apply.shown doc dx dy)) : c.Draws s dx dy scene := by
  have hshapes : ((·.isShape) ∘ Apply.shown doc dx dy : Element → Bool) = (·.isShape) := by
    funext e
    exact Apply.isShape_shown doc dx dy e
  have houtline : ∀ f ∈ c.shapeFigures s name, (Apply.shown doc dx dy f.main).outline =
      { id := f.label?.getD "", kind := f.main.kind, transform := f.main.transform.moved dx dy } := by
    intro f hf
    rw [Apply.shown_of_isShape (c.isShape_shapeFigures s hf), ← h.id_shape f hf]
    rfl
  rw [Draws, helements, List.filter_map, hshapes, filter_isShape_convert, List.map_map, List.map_map]
  refine (List.map_congr_left houtline).trans ?_
  rw [shapeFigures, List.map_append, containerFigures, nodeFigures, List.map_map, List.map_map, outlines]
  congr 1
  · exact map_fst_zipIdx (containerOutline dx dy) _
  · exact map_fst_zipIdx (nodeOutline dx dy) _

namespace Draws

variable {dx dy : Float32} {scene : Scene}

/-- The nodes of the scene, by their outlines. -/
theorem map_outline_nodes (h : c.Draws s dx dy scene) :
    scene.nodes.map (·.outline) = (c.outlines s dx dy).filter (·.isNode) := by
  rw [Scene.nodes, ← Element.filter_filter_isShape (fun _ => Element.isNode_of_not_isShape), ← h, List.filter_map]
  rfl

/-- The containers of the scene, by their outlines. -/
theorem map_outline_containers (h : c.Draws s dx dy scene) :
    scene.containers.map (·.outline) = (c.outlines s dx dy).filter (·.isContainer) := by
  rw [Scene.containers, ← Element.filter_filter_isShape (fun _ => Element.isContainer_of_not_isShape), ← h,
    List.filter_map]
  rfl

end Draws

/-- The ids of the outlines. -/
theorem map_id_outlines (c : Layout) (s : Skeleton) (dx dy : Float32) :
    (c.outlines s dx dy).map (·.id) = c.shapeIds s := by
  rw [outlines, List.map_append, List.map_map, List.map_map]
  rfl

/-- Every node has an outline, and no other outline has its id. -/
theorem eq_nodeOutline_of_mem_outlines (hs : s.IsSound) {dx dy : Float32} {p : PlacedNode} (hp : p ∈ c.placed s)
    {e : Element} (he : e ∈ c.outlines s dx dy) (hid : e.id = p.node.id) : e = nodeOutline dx dy p := by
  have hnodup : ((c.outlines s dx dy).map (·.id)).Nodup := by
    rw [map_id_outlines]
    exact shapeIds_nodup hs
  have hmem : nodeOutline dx dy p ∈ c.outlines s dx dy := List.mem_append_right _ (List.mem_map.2 ⟨p, hp, rfl⟩)
  exact List.inj_on_of_nodup_map hnodup he hmem hid

/-- The shape of a node that is not as large as a container stands for a node. -/
theorem isNode_nodeOutline (hsizes : Element.hasContainerSize
      { x := 0, y := 0, width := c.nodeWidth, height := c.nodeHeight } = false) {p : PlacedNode} (hp : p ∈ c.placed s)
    (dx dy : Float32) : (nodeOutline dx dy p).isNode = true := by
  obtain ⟨hwidth, hheight⟩ := c.size_placed s hp
  have hsize : Element.hasContainerSize (p.transform.moved dx dy) = false := by
    rw [← hsizes, Element.hasContainerSize, Transform.moved, hwidth, hheight]
    rfl
  cases hshape : p.node.shape <;> simp [nodeOutline, Element.isNode, Element.role?, kindOf, hshape, hsize]

end Layout

/-- A canvas draws the layout of its document, if the elements are made with ids of their own. -/
theorem Apply.exists_draws {c : Layout} {fresh : Nat → String} {view : Viewport} {doc : Document} {made : Remapped}
    {edgeIds : List String} {scene : Scene} (hmade : elementsOf (c.convert fresh) view doc = .ok made)
    (hscene : scene.elements = made.elements) (hedges : allocateEdgeIds [] doc.pairs = .ok edgeIds)
    (hs : (Skeleton.ofDocument doc edgeIds).IsSound) (hfresh : IsSupply (Skeleton.ofDocument doc edgeIds) fresh) :
    ∃ name box, Scene.boundingBox? (c.convert name (Skeleton.ofDocument doc edgeIds)) = some box ∧
      c.Draws (Skeleton.ofDocument doc edgeIds) (view.center.x - box.center.x) (view.center.y - box.center.y) scene := by
  obtain ⟨edgeIds', hedges', box, hbox, helements⟩ := exists_box_of_elementsOf_eq_ok hmade
  obtain rfl : edgeIds' = edgeIds := Except.ok.inj (hedges'.symm.trans hedges)
  obtain ⟨name, hname, hremap⟩ := Layout.elements_remap_convert (c := c) hs hfresh
  rw [hremap] at hbox helements
  exact ⟨name, box, hbox, hname.draws (hscene.trans helements)⟩

end Whiteboard
