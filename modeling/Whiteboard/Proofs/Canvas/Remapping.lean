import Whiteboard.Proofs.Canvas.Conversion
import Whiteboard.Proofs.Canvas.Element
import Whiteboard.Proofs.Canvas.Layout
import Whiteboard.Proofs.Text

/-!
# Ids restored

Remapping gives every element of a conversion the id it stands for, and which ids the elements were made with makes no
difference.
-/

namespace Whiteboard

open Text

/-! ## Labels -/

namespace Convert

variable (id content owner : String) (t : Transform)

/-- A label has the id it is made with. -/
@[simp] theorem id_labelOf : (labelOf id content owner t).id = id := rfl

/-- A label is bound to its owner. -/
@[simp] theorem container?_labelOf : (labelOf id content owner t).container? = some owner := rfl

/-- A label shows its content. -/
@[simp] theorem text?_labelOf : (labelOf id content owner t).text? = some content := rfl

/-- A label stands for no group. -/
@[simp] theorem isContainer_labelOf : (labelOf id content owner t).isContainer = false := rfl

/-- A label stands for no node. -/
@[simp] theorem isNode_labelOf : (labelOf id content owner t).isNode = false := rfl

/-- A label is no shape. -/
@[simp] theorem isShape_labelOf : (labelOf id content owner t).isShape = false := rfl

/-- A label is no arrow. -/
@[simp] theorem isArrow_labelOf : (labelOf id content owner t).isArrow = false := rfl

/-- A label joins nothing. -/
@[simp] theorem ends?_labelOf : (labelOf id content owner t).ends? = none := rfl

end Convert

namespace Remap

open Whiteboard.Convert

variable {fresh : Nat → String} {figs : List Figure}

/-! ## Wishes of figures -/

/-- What is chosen among the elements of figures where texts are not. -/
theorem filter_elements {q : Element → Bool} (hq : ∀ id content owner t, q (labelOf id content owner t) = false)
    (figs : List Figure) :
    (figs.flatMap (·.elements fresh)).filter q = (figs.filter (q ·.main)).map (·.main) := by
  induction figs with
  | nil => rfl
  | cons f figs ih =>
    have htext : (f.text? fresh).toList.filter q = [] := by
      cases hl : f.label? <;> simp [Figure.text?, hl, hq]
    rw [List.flatMap_cons, List.filter_append, ih, Figure.elements, List.filter_cons, htext, List.filter_cons]
    cases q f.main <;> rfl

/-- The text of a figure without blanks around it. -/
def trimmedLabel? (f : Figure) : Option String := f.label?.map fun t => String.ofList (trim t.toList)

/-- What is bound to an element are the texts of the figures that it is the main element of. -/
theorem filter_container?_elements (hmain : ∀ f ∈ figs, f.main.container? = none) (id : String) :
    (figs.flatMap (·.elements fresh)).filter (·.container? == some id) =
      (figs.filter (·.main.id == id)).filterMap (·.text? fresh) := by
  induction figs with
  | nil => rfl
  | cons f figs ih =>
    obtain ⟨hf, hfigs⟩ := List.forall_mem_cons.1 hmain
    rw [List.flatMap_cons, List.filter_append, ih hfigs, Figure.elements, List.filter_cons, hf, List.filter_cons]
    cases hl : f.label? <;> cases hid : f.main.id == id <;> simp [Figure.text?, hl, hid]

/-- Where keys are distinct there is one item with the key of each. -/
theorem filter_key_eq_singleton {key : α → String} {xs : List α} (h : (xs.map key).Nodup) {x : α} (hx : x ∈ xs) :
    xs.filter (key · == key x) = [x] := by
  induction xs with
  | nil => cases hx
  | cons y ys ih =>
    obtain ⟨hnotin, hnodup⟩ := List.nodup_cons.1 h
    rcases List.mem_cons.1 hx with rfl | hx
    · have hnone : ys.filter (key · == key x) = [] := by
        rw [List.filter_eq_nil_iff]
        intro z hz heq
        exact hnotin (List.mem_map.2 ⟨z, hz, by simpa using heq⟩)
      rw [List.filter_cons_of_pos (by simp), hnone]
    · have hne : key y ≠ key x := fun heq => hnotin (List.mem_map.2 ⟨x, hx, heq.symm⟩)
      rw [List.filter_cons_of_neg (by simpa using hne), ih hnodup hx]

/-- Where main elements have distinct ids the text bound to one is that of its figure. -/
theorem filter_container?_main (hmain : ∀ f ∈ figs, f.main.container? = none) (hnodup : (figs.map (·.main.id)).Nodup)
    {f : Figure} (hf : f ∈ figs) :
    (figs.flatMap (·.elements fresh)).filter (·.container? == some f.main.id) = (f.text? fresh).toList := by
  have honly : figs.filter (·.main.id == f.main.id) = [f] := filter_key_eq_singleton hnodup hf
  rw [filter_container?_elements hmain, honly]
  cases h : f.text? fresh <;> simp [h]

/-- The text bound to the main element of a figure is its label without blanks around it. -/
theorem boundTexts_main (hmain : ∀ f ∈ figs, f.main.container? = none) (hnodup : (figs.map (·.main.id)).Nodup) {f : Figure}
    (hf : f ∈ figs) :
    boundTexts (figs.flatMap (·.elements fresh)) f.main.id = (trimmedLabel? f).toList := by
  rw [boundTexts, filter_container?_main hmain hnodup hf]
  cases hl : f.label? <;> simp [trimmedLabel?, Figure.text?, hl]

/-- A figure wishes for the id in its text. -/
def ownWish (f : Figure) : String × String := (f.main.id, f.label?.getD "")

/-- The wishes of the chosen figures, if each of them has a text in which its wish is found. -/
theorem shapeWishes_elements (hmain : ∀ f ∈ figs, f.main.container? = none) (hnodup : (figs.map (·.main.id)).Nodup)
    {q : Element → Bool} (hq : ∀ id content owner t, q (labelOf id content owner t) = false)
    {wish? : List String → Option String}
    (hwish : ∀ f ∈ figs, q f.main = true → wish? (trimmedLabel? f).toList = some (f.label?.getD "")) :
    shapeWishes (figs.flatMap (·.elements fresh)) ((figs.flatMap (·.elements fresh)).filter q) wish? =
      (figs.filter (q ·.main)).map ownWish := by
  rw [shapeWishes, filter_elements hq, List.filterMap_map, ← List.filterMap_eq_map]
  apply List.filterMap_congr
  intro f hf
  obtain ⟨hf, hqf⟩ := List.mem_filter.1 hf
  simp only [Function.comp_apply, boundTexts_main hmain hnodup hf, hwish f hf hqf, Option.map_some, ownWish]

/-- Elements that are bound at fewer than two ends have no part in the wishes of arrows. -/
theorem arrowWishes_filter (r : Renaming) (edges : List Edge) (es : List Element) :
    arrowWishes r edges es = arrowWishes r edges (es.filter (·.ends?.isSome)) := by
  fun_induction arrowWishes r edges es with
  | case1 edges => rfl
  | case2 edges e rest hends ih => rw [List.filter_cons_of_neg (by simp [hends]), ih]
  | case3 edges e rest start finish hends hnone ih =>
    rw [List.filter_cons_of_pos (by simp [hends]), arrowWishes, hends]
    simp only [hnone, ih]
  | case4 edges e rest start finish hends edge left hsome ih =>
    rw [List.filter_cons_of_pos (by simp [hends]), arrowWishes, hends]
    simp only [hsome, ih]

/-- An arrow stands for an edge: its ends have the ids of the ends of the edge. -/
def Joins (r : Renaming) (e : Element) (edge : Edge) : Prop :=
  ∃ start finish, e.ends? = some (start, finish) ∧ r.resolve start = edge.source ∧ r.resolve finish = edge.target

/-- Arrows that stand for edges, in the same order, wish for the ids of those. -/
theorem arrowWishes_eq_zip {r : Renaming} {es : List Element} {edges : List Edge} (h : List.Forall₂ (Joins r) es edges) :
    arrowWishes r edges es = (es.map (·.id)).zip (edges.map (·.id)) := by
  induction h with
  | nil => rfl
  | @cons e edge es edges hjoins _ ih =>
    obtain ⟨start, finish, hends, hstart, hfinish⟩ := hjoins
    simp [arrowWishes, hends, extract?, hstart, hfinish, ih]

/-- The texts of figures whose main elements have new ids wish for ids made from those. -/
theorem textWishes_elements (hmain : ∀ f ∈ figs, f.main.container? = none) {r : Renaming} {owners : List String}
    (howners : List.Forall₂ (fun f owner => r.new? f.main.id = some owner) figs owners) :
    textWishes r (figs.flatMap (·.elements fresh)) =
      (figs.zip owners).filterMap fun (f, owner) => f.label?.map fun _ => (fresh (f.place + 1), textPrefix ++ owner) := by
  induction howners with
  | nil => rfl
  | @cons f owner figs owners howner _ ih =>
    obtain ⟨hf, hfigs⟩ := List.forall_mem_cons.1 hmain
    have ih := ih hfigs
    rw [textWishes] at ih ⊢
    rw [List.flatMap_cons, List.filterMap_append, ih, List.zip_cons_cons, List.filterMap_cons]
    cases hl : f.label? <;> simp [Figure.elements, Figure.text?, hl, hf, howner]

end Remap

/-! ## The ids that are due -/

/-- An id made from that of an owner begins like the id of a text. -/
theorem Remap.prefix_of_isVariant {owner id : String} (h : Remap.IsVariant (Remap.textPrefix ++ owner) id) :
    Remap.textPrefix.toList <+: id.toList := by
  obtain ⟨k, rfl⟩ := h
  have hprefix := Remap.prefix_variant (Remap.textPrefix ++ owner) k
  rw [String.toList_append] at hprefix
  exact (List.prefix_append _ _).trans hprefix

/-- A skeleton whose shapes can be told apart: the ids of nodes and groups are distinct and have no blanks around them, and
its edges join nodes. -/
structure Skeleton.IsSound (s : Skeleton) : Prop where
  shapes_nodup : (s.nodes.map (·.id) ++ s.groups).Nodup
  shapes_trimmed : ∀ id ∈ s.nodes.map (·.id) ++ s.groups, IsTrimmed id.toList
  edge_ends : ∀ e ∈ s.edges, e.source ∈ s.nodes.map (·.id) ∧ e.target ∈ s.nodes.map (·.id)

/-- The ids of a skeleton: those of its nodes, its groups and its edges. -/
def Skeleton.ids (s : Skeleton) : List String := s.nodes.map (·.id) ++ s.groups ++ s.edges.map (·.id)

/-- An id that may be given: a variant of an id of the skeleton, or of the id of a text made from such a variant. -/
def Skeleton.Derives (s : Skeleton) (id : String) : Prop :=
  ∃ base ∈ s.ids, ∃ owner, Remap.IsVariant base owner ∧ (id = owner ∨ Remap.IsVariant (Remap.textPrefix ++ owner) id)

/-- A supply of ids to make elements with: no two are equal, and none is an id that may be given. -/
structure IsSupply (s : Skeleton) (fresh : Nat → String) : Prop where
  injective : Function.Injective fresh
  apart : ∀ n, ¬ s.Derives (fresh n)

/-- An id from a supply. -/
def Generated (fresh : Nat → String) (id : String) : Prop := ∃ n, fresh n = id

namespace Layout

open Whiteboard.Convert Whiteboard.Remap

section

variable (c : Layout) (s : Skeleton)

/-- The ids of the shapes: those of the containers, then those of the nodes. -/
def shapeIds : List String := (c.containers s).map (·.1) ++ (c.placed s).map (·.node.id)

/-- The ids of the arrows: what is left to them after the shapes have theirs. -/
def arrowIds : List String := Renaming.grant (c.shapeIds s) (s.edges.map (·.id))

/-- The ids of what texts are bound to. -/
def ownerIds : List String := c.shapeIds s ++ c.arrowIds s

/-- The ids that texts wish for. -/
def textWants : List String :=
  ((c.slots s).zip (c.ownerIds s)).filterMap fun (t, owner) => t.label?.map fun _ => textPrefix ++ owner

/-- The ids of the texts: what is left to them after the others have theirs. -/
def textIds : List String := Renaming.grant (c.ownerIds s) (c.textWants s)

/-- The places of the texts. -/
def textPlaces : List Nat := (c.slots s).filterMap fun t => t.label?.map fun _ => t.place + 1

/-- The ids that are due, by the places of their elements. -/
structure IsNaming (name : Nat → String) : Prop where
  owners : (c.slots s).map (fun t => name t.place) = c.ownerIds s
  texts : (c.textPlaces s).map name = c.textIds s

/-- The figures of containers and nodes. -/
def shapeFigures (fresh : Nat → String) : List Figure := c.containerFigures s fresh ++ c.nodeFigures s fresh

/-- The shapes with other ids are those shapes under the other ids. -/
theorem shapeFigures_natural (σ : String → String) (fresh : Nat → String) :
    c.shapeFigures s (σ ∘ fresh) = (c.shapeFigures s fresh).map (·.mapIds σ) := by
  rw [shapeFigures, shapeFigures, List.map_append, containerFigures_natural, nodeFigures_natural]

theorem figures_eq (fresh : Nat → String) : c.figures s fresh = c.shapeFigures s fresh ++ c.arrowFigures s fresh := rfl

/-- Numbering items leaves them as they are. -/
theorem map_fst_zipIdx (f : α → β) (xs : List α) : (xs.zipIdx.map fun x => f x.1) = xs.map f := by
  conv_rhs => rw [← List.zipIdx_map_fst 0 xs, List.map_map]
  rfl

/-- The text of a shape is the id it stands for. -/
theorem map_label?_shapeFigures (fresh : Nat → String) :
    (c.shapeFigures s fresh).map (·.label?) = (c.shapeIds s).map some := by
  rw [shapeFigures, shapeIds, List.map_append, List.map_append, containerFigures, nodeFigures, List.map_map,
    List.map_map, List.map_map, List.map_map]
  congr 1
  · exact map_fst_zipIdx (fun g : String × Transform => some g.1) _
  · exact map_fst_zipIdx (fun p : PlacedNode => some p.node.id) _

/-- Boxes and nodes are shapes. -/
theorem isShape_shapeFigures {fresh : Nat → String} {f : Figure} (hf : f ∈ c.shapeFigures s fresh) :
    f.main.isShape = true := by
  rcases List.mem_append.1 hf with hf | hf
  · obtain ⟨x, -, rfl⟩ := List.mem_map.1 hf
    rfl
  · obtain ⟨⟨p, i⟩, -, rfl⟩ := List.mem_map.1 hf
    cases hshape : p.node.shape <;> simp [nodeFigure, Element.isShape, kindOf, hshape]

/-- The figures of edges are arrows, and these are no shapes. -/
theorem isArrow_arrowFigures {fresh : Nat → String} {f : Figure} (hf : f ∈ c.arrowFigures s fresh) :
    f.main.isArrow = true ∧ f.main.isShape = false := by
  obtain ⟨x, -, rfl⟩ := List.mem_map.1 hf
  exact ⟨rfl, rfl⟩

/-- Every element is a main element or a text. -/
theorem places_perm : ((c.slots s).map (·.place) ++ c.textPlaces s).Perm (c.places s) := by
  rw [textPlaces, places]
  induction c.slots s with
  | nil => exact .refl _
  | cons t ts ih =>
    rw [List.map_cons, List.flatMap_cons, List.filterMap_cons, Slot.places]
    cases t.label? with
    | none => exact ih.cons _
    | some content => exact (List.perm_middle.trans (ih.cons _)).cons _

end

variable {c : Layout} {s : Skeleton}

/-- Every shape stands for a node or a group. -/
theorem shapeIds_subset : c.shapeIds s ⊆ s.nodes.map (·.id) ++ s.groups := by
  intro id hid
  rcases List.mem_append.1 hid with hid | hid
  · exact List.mem_append_right _ ((c.containers_sublist s).subset hid)
  · exact List.mem_append_left _ ((c.map_id_placed_perm s).mem_iff.1 hid)

/-- No two shapes stand for the same. -/
theorem shapeIds_nodup (hs : s.IsSound) : (c.shapeIds s).Nodup := by
  have hnodup : (s.groups ++ (c.placed s).map (·.node.id)).Nodup :=
    (((c.map_id_placed_perm s).append_left _).trans List.perm_append_comm).nodup_iff.2 hs.shapes_nodup
  exact hnodup.sublist ((c.containers_sublist s).append_right _)

section

variable {fresh : Nat → String}

/-- No main element is bound to another. -/
theorem container?_figures : ∀ f ∈ c.figures s fresh, f.main.container? = none := fun _ hf => (c.figures_main s hf).2

/-- The ids of the main elements are those made for their places. -/
theorem map_id_figures : (c.figures s fresh).map (·.main.id) = ((c.slots s).map (·.place)).map fresh := by
  rw [← c.map_toSlot_figures s fresh, List.map_map, List.map_map]
  exact List.map_congr_left fun f hf => (c.figures_main s hf).1

/-- The elements of a conversion are main elements and texts. -/
theorem ids_nodup (h : ((c.convert fresh s).map (·.id)).Nodup) :
    ((c.figures s fresh).map (·.main.id) ++ (c.textPlaces s).map fresh).Nodup := by
  rw [map_id_convert] at h
  rw [map_id_figures, ← List.map_append]
  exact ((c.places_perm s).map fresh).nodup_iff.2 h

/-! ## Stage by stage -/

/-- The wishes of the shapes of one role: their own ids. -/
theorem shapeWishes_convert (hs : s.IsSound) (hfresh : Function.Injective fresh) {q : Element → Bool}
    (hq : ∀ id content owner t, q (labelOf id content owner t) = false) (hrole : ∀ e : Element, e.isShape = false → q e = false)
    {wish? : List String → Option String}
    (hwish : ∀ own ∈ s.intended.shapes, wish? [own] = some own) :
    shapeWishes (c.convert fresh s) ((c.convert fresh s).filter q) wish? =
      ((c.shapeFigures s fresh).filter (q ·.main)).map ownWish := by
  have hnodup := List.Nodup.of_append_left (ids_nodup (c.map_id_convert_nodup s hfresh))
  have harrows : (c.arrowFigures s fresh).filter (q ·.main) = [] := by
    rw [List.filter_eq_nil_iff]
    intro f hf
    simp [hrole _ (c.isArrow_arrowFigures s hf).2]
  rw [convert_eq_flatMap, shapeWishes_elements container?_figures hnodup hq, figures_eq, List.filter_append, harrows,
    List.append_nil]
  intro f hf hqf
  rw [figures_eq] at hf
  rcases List.mem_append.1 hf with hf | hf
  · have hlabel : f.label? ∈ (c.shapeIds s).map some := by
      rw [← c.map_label?_shapeFigures s fresh]
      exact List.mem_map.2 ⟨f, hf, rfl⟩
    obtain ⟨own, hown, hl⟩ := List.mem_map.1 hlabel
    have hown := shapeIds_subset hown
    have htrim : String.ofList (trim own.toList) = own := by
      rw [(hs.shapes_trimmed own hown).trim_eq, String.ofList_toList]
    rw [trimmedLabel?, ← hl, Option.map_some, htrim, Option.toList_some, Option.getD_some]
    exact hwish own hown
  · rw [hrole _ (c.isArrow_arrowFigures s hf).2] at hqf
    cases hqf

/-- No variant of an id that may be given is from the supply. -/
theorem not_generated_of_isVariant (hfresh : IsSupply s fresh) {base id : String} (hbase : base ∈ s.ids)
    (h : IsVariant base id) : ¬ Generated fresh id := by
  rintro ⟨n, rfl⟩
  exact hfresh.apart n ⟨base, hbase, fresh n, h, Or.inl rfl⟩

/-- Before anything is renamed every id is one that was made. -/
theorem knows_start (c : Layout) (s : Skeleton) (fresh : Nat → String) :
    (⟨(c.convert fresh s).map (·.id), []⟩ : Renaming).Knows (Generated fresh) [] := by
  intro id hid
  constructor
  · intro hmem
    change id ∈ (c.convert fresh s).map (·.id) at hmem
    rw [map_id_convert] at hmem
    obtain ⟨n, -, rfl⟩ := List.mem_map.1 hmem
    exact absurd ⟨n, rfl⟩ hid
  · intro hmem
    cases hmem

/-- A shape stands for the id in its label. -/
theorem map_own_shapeFigures (c : Layout) (s : Skeleton) (fresh : Nat → String) :
    (c.shapeFigures s fresh).map (fun f => f.label?.getD "") = c.shapeIds s := by
  have h := congrArg (List.map (·.getD "")) (c.map_label?_shapeFigures s fresh)
  rw [List.map_map, List.map_map] at h
  exact h.trans (List.map_id _)

/-- The wishes of the shapes, first those of one role and then those of the other. -/
def shapeWishList (c : Layout) (s : Skeleton) (fresh : Nat → String) : List (String × String) :=
  ((c.shapeFigures s fresh).filter (·.main.isContainer)).map ownWish ++
    ((c.shapeFigures s fresh).filter (·.main.isNode)).map ownWish

/-- Every shape has its wish, whatever its role is. -/
theorem shapeWishList_perm (c : Layout) (s : Skeleton) (fresh : Nat → String) :
    (c.shapeWishList s fresh).Perm ((c.shapeFigures s fresh).map ownWish) := by
  have hnodes : (c.shapeFigures s fresh).filter (·.main.isNode) =
      (c.shapeFigures s fresh).filter fun f => !f.main.isContainer :=
    List.filter_congr fun f hf => Element.isNode_eq_not_isContainer (c.isShape_shapeFigures s hf)
  rw [shapeWishList, hnodes, ← List.map_append]
  exact (List.filter_append_perm (fun f : Figure => f.main.isContainer) _).map _

/-- The shapes wish for distinct ids, none of which was made. -/
theorem shapeWishList_areApart (hfresh : IsSupply s fresh) :
    Renaming.AreApart (Generated fresh) (c.shapeWishList s fresh) := by
  have hmem : ∀ w ∈ c.shapeWishList s fresh, ∃ f ∈ c.shapeFigures s fresh, w = ownWish f := by
    intro w hw
    obtain ⟨f, hf, rfl⟩ := List.mem_map.1 ((c.shapeWishList_perm s fresh).mem_iff.1 hw)
    exact ⟨f, hf, rfl⟩
  refine ⟨?_, ?_, ?_⟩
  · have hnodup := List.Nodup.of_append_left (ids_nodup (c.map_id_convert_nodup s hfresh.injective))
    rw [figures_eq, List.map_append] at hnodup
    rw [((c.shapeWishList_perm s fresh).map _).nodup_iff, List.map_map]
    exact List.Nodup.of_append_left hnodup
  · intro w hw
    obtain ⟨f, hf, rfl⟩ := hmem w hw
    exact ⟨f.place, ((c.figures_main s (List.mem_append_left _ hf)).1).symm⟩
  · intro w hw id hid
    obtain ⟨f, hf, rfl⟩ := hmem w hw
    have hown : f.label?.getD "" ∈ c.shapeIds s := by
      rw [← c.map_own_shapeFigures s fresh]
      exact List.mem_map.2 ⟨f, hf, rfl⟩
    exact not_generated_of_isVariant hfresh (List.mem_append_left _ (shapeIds_subset hown)) hid

/-- After the shapes are renamed each has the id it stands for. -/
theorem renameAll_shapes (hs : s.IsSound) (hfresh : IsSupply s fresh) {r : Renaming}
    (hr : r.Knows (Generated fresh) []) :
    (r.renameAll (c.shapeWishList s fresh)).Knows (Generated fresh) (c.shapeIds s) ∧
    ∀ f ∈ c.shapeFigures s fresh,
      (r.renameAll (c.shapeWishList s fresh)).new? f.main.id = some (f.label?.getD "") := by
  obtain ⟨hknows, hgranted⟩ := hr.renameAll (shapeWishList_areApart (c := c) hfresh)
  have hwants : ((c.shapeWishList s fresh).map (·.2)).Perm (c.shapeIds s) := by
    have hperm := (c.shapeWishList_perm s fresh).map (·.2)
    rw [List.map_map] at hperm
    rw [← c.map_own_shapeFigures s fresh]
    exact hperm
  have hgrant : Renaming.grant [] ((c.shapeWishList s fresh).map (·.2)) = (c.shapeWishList s fresh).map (·.2) :=
    Renaming.grant_of_nodup (hwants.nodup_iff.2 (shapeIds_nodup hs))
  rw [hgrant] at hknows hgranted
  refine ⟨fun id hid => (hknows id hid).trans hwants.mem_iff, ?_⟩
  rw [List.forall₂_map_right_iff, List.forall₂_same] at hgranted
  intro f hf
  exact hgranted (ownWish f) ((c.shapeWishList_perm s fresh).mem_iff.2 (List.mem_map.2 ⟨f, hf, rfl⟩))

/-- Where edges join nodes there is an arrow for each of them, in order. -/
theorem map_edge_arrows_of_isSound (hs : s.IsSound) : (c.arrows s).map (·.2.edge) = s.edges :=
  (c.map_edge_arrows s).trans (List.filter_eq_self.2 fun e he => decide_eq_true (hs.edge_ends e he))

/-- The ids at the ends of an arrow, if every shape has its own, are those of the ends of its edge. -/
theorem ends_arrows {name : Nat → String} (hname : ∀ f ∈ c.shapeFigures s name, f.main.id = f.label?.getD "")
    {n : Nat} {e : JoinedEdge} (h : (n, e) ∈ c.arrows s) :
    name (c.firstShape s + 2 * e.source) = e.edge.source ∧ name (c.firstShape s + 2 * e.target) = e.edge.target := by
  have hshape : ∀ i p, (c.placed s)[i]? = some p → name (c.firstShape s + 2 * i) = p.node.id := fun i p hp =>
    hname _ (List.mem_append_right _ (c.nodeFigure_mem_nodeFigures s name hp))
  obtain ⟨⟨p, hp, hsource⟩, ⟨q, hq, htarget⟩⟩ := c.ends_of_mem_arrows s h
  exact ⟨(hshape _ _ hp).trans hsource, (hshape _ _ hq).trans htarget⟩

/-- Where shapes have their ids, every arrow stands for its edge. -/
theorem joins_arrows (hs : s.IsSound) {r : Renaming}
    (hshapes : ∀ f ∈ c.shapeFigures s fresh, r.new? f.main.id = some (f.label?.getD "")) :
    List.Forall₂ (Joins r) ((c.arrowFigures s fresh).map (·.main)) s.intended.edges := by
  have hname : ∀ f ∈ c.shapeFigures s (r.resolve ∘ fresh), f.main.id = f.label?.getD "" := by
    intro f hf
    rw [shapeFigures_natural] at hf
    obtain ⟨g, hg, rfl⟩ := List.mem_map.1 hf
    change r.resolve g.main.id = _
    rw [Renaming.resolve, hshapes g hg]
    rfl
  have hedges : s.intended.edges = (c.arrows s).map fun x => ⟨x.2.edge.id, x.2.edge.source, x.2.edge.target⟩ := by
    rw [Skeleton.intended, ← map_edge_arrows_of_isSound (c := c) hs, List.map_map]
    rfl
  rw [hedges, arrowFigures, List.map_map, List.forall₂_map_left_iff, List.forall₂_map_right_iff, List.forall₂_same]
  rintro ⟨n, e⟩ harrow
  exact ⟨_, _, rfl, (ends_arrows hname harrow).1, (ends_arrows hname harrow).2⟩

/-- The wishes of the arrows: the ids of the edges, in order. -/
theorem arrowWishes_convert (hs : s.IsSound) {r : Renaming}
    (hshapes : ∀ f ∈ c.shapeFigures s fresh, r.new? f.main.id = some (f.label?.getD "")) :
    arrowWishes r s.intended.edges (c.convert fresh s) =
      ((c.arrowFigures s fresh).map (·.main.id)).zip (s.edges.map (·.id)) := by
  have hbound : ((c.convert fresh s).filter (·.ends?.isSome)) = (c.arrowFigures s fresh).map (·.main) := by
    have hnone : (c.shapeFigures s fresh).filter (·.main.ends?.isSome) = [] := by
      rw [List.filter_eq_nil_iff]
      intro f hf
      simp [(Element.of_isShape (c.isShape_shapeFigures s hf)).2.2.2]
    have hall : (c.arrowFigures s fresh).filter (·.main.ends?.isSome) = c.arrowFigures s fresh := by
      rw [List.filter_eq_self]
      intro f hf
      obtain ⟨x, -, rfl⟩ := List.mem_map.1 hf
      rfl
    rw [convert_eq_flatMap, filter_elements (by simp), figures_eq, List.filter_append, hnone, hall, List.nil_append]
  rw [arrowWishes_filter, hbound, arrowWishes_eq_zip (joins_arrows hs hshapes), List.map_map, Skeleton.intended,
    List.map_map]
  rfl

/-- After the arrows are renamed every main element has the id that is due to it. -/
theorem renameAll_arrows (hs : s.IsSound) (hfresh : IsSupply s fresh) {r : Renaming}
    (hr : r.Knows (Generated fresh) (c.shapeIds s))
    (hshapes : ∀ f ∈ c.shapeFigures s fresh, r.new? f.main.id = some (f.label?.getD "")) :
    (r.renameAll (arrowWishes r s.intended.edges (c.convert fresh s))).Knows (Generated fresh) (c.ownerIds s) ∧
    List.Forall₂ (fun f id =>
        (r.renameAll (arrowWishes r s.intended.edges (c.convert fresh s))).new? f.main.id = some id)
      (c.figures s fresh) (c.ownerIds s) := by
  rw [arrowWishes_convert hs hshapes]
  have hlength : ((c.arrowFigures s fresh).map (·.main.id)).length = (s.edges.map (·.id)).length := by
    have h := (joins_arrows hs hshapes).length_eq
    simpa [Skeleton.intended] using h
  have hnodup := List.Nodup.of_append_left (ids_nodup (c.map_id_convert_nodup s hfresh.injective))
  rw [figures_eq, List.map_append] at hnodup
  have hmade : ∀ id ∈ (c.arrowFigures s fresh).map (·.main.id), Generated fresh id := by
    intro id hid
    obtain ⟨f, hf, rfl⟩ := List.mem_map.1 hid
    exact ⟨f.place, ((c.figures_main s (List.mem_append_right _ hf)).1).symm⟩
  obtain ⟨hknows, hgranted, hothers⟩ := hr.renameAll_zip hlength (List.Nodup.of_append_right hnodup) hmade
    fun wanted hwanted id => not_generated_of_isVariant hfresh (List.mem_append_right _ hwanted)
  refine ⟨hknows, ?_⟩
  rw [figures_eq, ownerIds]
  refine List.rel_append ?_ ?_
  · rw [← c.map_own_shapeFigures s fresh, List.forall₂_map_right_iff, List.forall₂_same]
    intro f hf
    rw [hothers, hshapes f hf]
    exact fun hmem => List.disjoint_of_nodup_append hnodup (List.mem_map.2 ⟨f, hf, rfl⟩) hmem
  · rwa [List.forall₂_map_left_iff] at hgranted

/-- The wishes of the texts, by their places. -/
theorem textWishes_convert {r : Renaming}
    (howners : List.Forall₂ (fun f id => r.new? f.main.id = some id) (c.figures s fresh) (c.ownerIds s)) :
    textWishes r (c.convert fresh s) = ((c.textPlaces s).map fresh).zip (c.textWants s) := by
  rw [convert_eq_flatMap, textWishes_elements container?_figures howners, textPlaces, textWants,
    ← c.map_toSlot_figures s fresh]
  generalize hfigs : c.figures s fresh = figs at howners
  generalize c.ownerIds s = owners at howners
  clear hfigs
  induction howners with
  | nil => rfl
  | @cons f owner figs owners _ _ ih =>
    simp only [List.zip_cons_cons, List.map_cons, List.filterMap_cons]
    cases f.label? with
    | none => simpa using ih
    | some content => simpa using ih

/-- There is one wish for every text. -/
theorem length_textWants (h : (c.slots s).length = (c.ownerIds s).length) :
    (c.textWants s).length = (c.textPlaces s).length := by
  rw [textWants, textPlaces]
  generalize c.slots s = slots at h
  generalize c.ownerIds s = owners at h
  induction slots generalizing owners with
  | nil => rfl
  | cons t slots ih =>
    cases owners with
    | nil => cases h
    | cons owner owners =>
      have ih := ih owners (Nat.succ.inj h)
      cases hl : t.label? <;> simp [hl, ih]

/-- What a main element is named for. -/
theorem exists_base_of_mem_ownerIds {id : String} (h : id ∈ c.ownerIds s) : ∃ base ∈ s.ids, IsVariant base id := by
  rcases List.mem_append.1 h with h | h
  · exact ⟨id, List.mem_append_left _ (shapeIds_subset h), isVariant_self id⟩
  · obtain ⟨base, hbase, hvariant⟩ := Renaming.exists_isVariant_of_mem_grant h
    exact ⟨base, List.mem_append_right _ hbase, hvariant⟩

/-- A text wishes for the id of its owner behind the mark of texts. -/
theorem mem_textWants {wanted : String} (h : wanted ∈ c.textWants s) :
    ∃ owner ∈ c.ownerIds s, wanted = textPrefix ++ owner := by
  obtain ⟨⟨t, owner⟩, hzip, hwant⟩ := List.mem_filterMap.1 h
  obtain ⟨content, -, rfl⟩ := Option.map_eq_some_iff.1 hwant
  exact ⟨owner, (List.of_mem_zip hzip).2, rfl⟩

/-- After the texts are renamed every element has the id that is due to it. -/
theorem renameAll_texts (hfresh : IsSupply s fresh) {r : Renaming} (hr : r.Knows (Generated fresh) (c.ownerIds s))
    (howners : List.Forall₂ (fun f id => r.new? f.main.id = some id) (c.figures s fresh) (c.ownerIds s)) :
    c.IsNaming s ((r.renameAll (textWishes r (c.convert fresh s))).resolve ∘ fresh) := by
  rw [textWishes_convert howners]
  have hslots : (c.slots s).length = (c.ownerIds s).length := by
    rw [← howners.length_eq, ← c.map_toSlot_figures s fresh, List.length_map]
  have hlength : ((c.textPlaces s).map fresh).length = (c.textWants s).length := by
    rw [List.length_map, length_textWants hslots]
  have hnodup := ids_nodup (c.map_id_convert_nodup s hfresh.injective)
  have hmade : ∀ id ∈ (c.textPlaces s).map fresh, Generated fresh id := by
    intro id hid
    obtain ⟨n, -, rfl⟩ := List.mem_map.1 hid
    exact ⟨n, rfl⟩
  have hwants : ∀ wanted ∈ c.textWants s, ∀ id, IsVariant wanted id → ¬ Generated fresh id := by
    rintro wanted hwanted id hvariant ⟨n, rfl⟩
    obtain ⟨owner, howner, rfl⟩ := mem_textWants hwanted
    obtain ⟨base, hbase, hbaseVariant⟩ := exists_base_of_mem_ownerIds howner
    exact hfresh.apart n ⟨base, hbase, owner, hbaseVariant, Or.inr hvariant⟩
  obtain ⟨-, hgranted, hothers⟩ := hr.renameAll_zip hlength (List.Nodup.of_append_right hnodup) hmade hwants
  generalize r.renameAll (((c.textPlaces s).map fresh).zip (c.textWants s)) = r' at hgranted hothers
  refine ⟨?_, ?_⟩
  · rw [← c.map_toSlot_figures s fresh, List.map_map, ← List.forall₂_eq_eq_eq, List.forall₂_map_left_iff]
    have hkept : ∀ f ∈ c.figures s fresh, r'.resolve (fresh f.place) = r.resolve f.main.id := by
      intro f hf
      have hmain : f.main.id = fresh f.place := (c.figures_main s hf).1
      have hnew : r'.new? f.main.id = r.new? f.main.id :=
        hothers _ fun hmem => List.disjoint_of_nodup_append hnodup (List.mem_map.2 ⟨f, hf, rfl⟩) hmem
      rw [← hmain, Renaming.resolve, hnew, Renaming.resolve]
    refine ((List.forall₂_and_left _ _).2 ⟨hkept, howners⟩).imp ?_
    rintro f id ⟨hresolve, howner⟩
    exact hresolve.trans (Renaming.resolve_of_new? howner)
  · rw [← List.forall₂_eq_eq_eq, ← List.map_map, List.forall₂_map_left_iff]
    exact hgranted.imp fun _ _ h => Renaming.resolve_of_new? h

/-- The renaming of a conversion: shapes, arrows and texts, one stage after the other. -/
theorem renamingOf_convert (hs : s.IsSound) (hfresh : IsSupply s fresh) :
    c.IsNaming s ((renamingOf (c.convert fresh s) s.intended).resolve ∘ fresh) := by
  have hcontainers : shapeWishes (c.convert fresh s) ((c.convert fresh s).filter (·.isContainer))
      (containerWish? s.intended.shapes) = ((c.shapeFigures s fresh).filter (·.main.isContainer)).map ownWish :=
    shapeWishes_convert hs hfresh.injective (by simp) (fun _ => Element.isContainer_of_not_isShape)
      fun own hown => by simp [containerWish?, hown]
  have hnodes : shapeWishes (c.convert fresh s) ((c.convert fresh s).filter (·.isNode))
      (nodeWish? s.intended.shapes) = ((c.shapeFigures s fresh).filter (·.main.isNode)).map ownWish :=
    shapeWishes_convert hs hfresh.injective (by simp) (fun _ => Element.isNode_of_not_isShape)
      fun own hown => by simp [nodeWish?, hown]
  obtain ⟨hknows, hshapes⟩ := renameAll_shapes hs hfresh (c.knows_start s fresh)
  obtain ⟨hknows, howners⟩ := renameAll_arrows hs hfresh hknows hshapes
  have htexts := renameAll_texts hfresh hknows howners
  rw [renamingOf, hcontainers, hnodes]
  rw [shapeWishList, Renaming.renameAll_append] at htexts
  exact htexts

/-- Remapping gives every element of a conversion the id that is due to it. -/
theorem elements_remap_convert (hs : s.IsSound) (hfresh : IsSupply s fresh) :
    ∃ name, c.IsNaming s name ∧ (remap (c.convert fresh s) s.intended).elements = c.convert name s := by
  refine ⟨_, renamingOf_convert hs hfresh, ?_⟩
  rw [convert_natural, remap]
  exact List.map_congr_left fun e _ => renamedElement_eq_mapIds _ e

/-- Two namings agree on every element. -/
theorem IsNaming.eq_on_places {name name' : Nat → String} (h : c.IsNaming s name) (h' : c.IsNaming s name') :
    ∀ n ∈ c.places s, name n = name' n := by
  have howners : ∀ n ∈ (c.slots s).map (·.place), name n = name' n := by
    intro n hn
    obtain ⟨t, ht, rfl⟩ := List.mem_map.1 hn
    exact List.map_inj_left.1 (h.owners.trans h'.owners.symm) t ht
  have htexts : ∀ n ∈ c.textPlaces s, name n = name' n := List.map_inj_left.1 (h.texts.trans h'.texts.symm)
  intro n hn
  rcases List.mem_append.1 ((c.places_perm s).mem_iff.2 hn) with hn | hn
  · exact howners n hn
  · exact htexts n hn

end

end Layout

end Whiteboard
