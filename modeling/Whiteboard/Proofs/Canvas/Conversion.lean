import Whiteboard.Canvas.Convert
import Whiteboard.Proofs.Canvas.Layout
import Whiteboard.Proofs.Canvas.Renaming
import Mathlib.Data.List.Nodup
import Mathlib.Logic.Function.Basic

/-!
# The shape of a conversion

The elements made from a skeleton come as figures: a shape or an arrow, and behind it the text bound to it
(`Layout.convert_eq_flatMap`). Everything that is said of a conversion is said of its figures.

A conversion takes its ids from a supply and does nothing else with them: other ids give the same elements with those
ids in place of the first (`Layout.convert_natural`), and only the ids at the places of its elements count
(`Layout.convert_congr`).
-/

namespace Whiteboard

/-! ## Renaming the ids of elements -/

namespace Element

/-- A kind with another id in place of each that it refers to. -/
def Kind.mapIds (σ : String → String) : Kind → Kind
  | .text content container? fontSize => .text content (container?.map σ) fontSize
  | .arrow start? finish? dashed => .arrow (start?.map σ) (finish?.map σ) dashed
  | kind => kind

/-- The ids that a kind refers to. -/
def Kind.refs : Kind → List String
  | .text _ container? _ => container?.toList
  | .arrow start? finish? _ => start?.toList ++ finish?.toList
  | _ => []

/-- An element with another id in place of each, its own and those that it refers to. -/
def mapIds (σ : String → String) (e : Element) : Element :=
  { e with id := σ e.id, kind := e.kind.mapIds σ, bound := e.bound.map fun b => { b with id := σ b.id } }

/-- Every id in an element: its own, those of its container and its ends, and those of what is bound to it. -/
def ids (e : Element) : List String := e.id :: (e.kind.refs ++ e.bound.map (·.id))

/-- Renamings that agree on the ids of an element have the same effect on it. -/
theorem mapIds_congr {σ τ : String → String} {e : Element} (h : ∀ id ∈ e.ids, σ id = τ id) : e.mapIds σ = e.mapIds τ := by
  have hkind : e.kind.mapIds σ = e.kind.mapIds τ := by
    have hrefs : ∀ id ∈ e.kind.refs, σ id = τ id := fun id hid => h id (by simp [ids, hid])
    cases hk : e.kind with
    | text content container? fontSize =>
      rw [hk] at hrefs
      cases container? with
      | none => rfl
      | some id => simp [Kind.mapIds, hrefs id (by simp [Kind.refs])]
    | arrow start? finish? dashed =>
      rw [hk] at hrefs
      cases start? <;> cases finish? <;> simp_all [Kind.mapIds, Kind.refs]
    | _ => rfl
  have hbound : e.bound.map (fun b => { b with id := σ b.id }) = e.bound.map (fun b => { b with id := τ b.id }) := by
    apply List.map_congr_left
    intro b hb
    rw [h b.id (by simp only [ids, List.mem_cons, List.mem_append, List.mem_map]; exact Or.inr (Or.inr ⟨b, hb, rfl⟩))]
  rw [mapIds, mapIds, hkind, hbound, h e.id (by simp [ids])]

end Element

/-- Renaming an element puts the new id in the place of every id in it. -/
theorem Remap.renamedElement_eq_mapIds (r : Remap.Renaming) (e : Element) :
    Remap.renamedElement r e = e.mapIds r.resolve := by
  obtain ⟨id, kind, transform, bound, groupIds⟩ := e
  cases kind <;> rfl

/-- The edges between nodes. -/
def Skeleton.joined (s : Skeleton) : List Skeleton.Edge :=
  s.edges.filter fun e => e.source ∈ s.nodes.map (·.id) ∧ e.target ∈ s.nodes.map (·.id)

/-! ## Figures -/

namespace Convert

/-- A place among all elements, and the content of the text that comes next, if one does. -/
structure Slot where
  place : Nat
  label? : Option String

/-- The places that a slot takes up. -/
def Slot.places (t : Slot) : List Nat := t.place :: (t.label?.map fun _ => t.place + 1).toList

/-- A shape or an arrow in its slot. Its text is bound to it and lies in the same place. -/
structure Figure extends Slot where
  main : Element

namespace Figure

/-- The text of a figure. -/
def text? (fresh : Nat → String) (f : Figure) : Option Element :=
  f.label?.map fun content => labelOf (fresh (f.place + 1)) content f.main.id f.main.transform

/-- The elements of a figure. -/
def elements (fresh : Nat → String) (f : Figure) : List Element := f.main :: (f.text? fresh).toList

/-- The figure with other ids. -/
def mapIds (σ : String → String) (f : Figure) : Figure := { f with main := f.main.mapIds σ }

/-- Other ids in a figure are other ids in its elements. -/
theorem elements_mapIds (σ : String → String) (fresh : Nat → String) (f : Figure) :
    (f.mapIds σ).elements (σ ∘ fresh) = (f.elements fresh).map (·.mapIds σ) := by
  cases h : f.label? <;>
    simp [elements, text?, mapIds, h, labelOf, Element.mapIds, Element.Kind.mapIds]

end Figure

/-- A container and its text. -/
def containerFigure (fresh : Nat → String) (n : Nat) (group : String) (box : Transform) : Figure :=
  { place := n
    label? := some group
    main := { id := fresh n, kind := .rectangle, transform := box, bound := [boundText (fresh (n + 1))] } }

/-- A shape and its text. -/
def nodeFigure (fresh : Nat → String) (arrows : List (Nat × JoinedEdge)) (n i : Nat) (p : PlacedNode) : Figure :=
  let incident := arrows.filter fun (_, e) => e.source == i || e.target == i
  { place := n
    label? := some p.node.id
    main := {
      id := fresh n
      kind := kindOf p.node.shape
      transform := p.transform
      bound := incident.map (fun (k, _) => ⟨fresh k, .arrow⟩) ++ [boundText (fresh (n + 1))]
      groupIds := p.node.group?.toList } }

/-- An arrow and its label. -/
def arrowFigure (fresh : Nat → String) (shapeId : Nat → String) (transformOf : Nat → Transform) (n : Nat)
    (e : JoinedEdge) : Figure :=
  let start := (transformOf e.source).center
  let finish := (transformOf e.target).center
  { place := n
    label? := e.edge.label?
    main := {
      id := fresh n
      kind := .arrow (some (shapeId e.source)) (some (shapeId e.target)) e.edge.dashed
      transform := {
        x := lesser start.x finish.x
        y := lesser start.y finish.y
        width := (finish.x - start.x).abs
        height := (finish.y - start.y).abs }
      bound := e.edge.label?.elim [] fun _ => [boundText (fresh (n + 1))] } }

end Convert

/-- No two places have the same numbered id. -/
theorem numberedId_injective : Function.Injective numberedId := by
  intro a b h
  have hnumber : toString a = toString b := by
    have h := congrArg String.toList h
    simp only [numberedId, String.toList_append] at h
    exact String.toList_inj.1 (List.append_cancel_left h)
  exact Ids.eq_of_toString_eq hnumber

namespace Layout

open Whiteboard.Convert

variable (c : Layout) (s : Skeleton)

/-- The place of the first shape of a node. -/
def firstShape : Nat := 2 * (c.containers s).length

/-- The arrows with their places. -/
def arrows : List (Nat × JoinedEdge) :=
  numberEdges (c.firstShape s + 2 * (c.placed s).length) (joinedEdges (c.placed s) s.edges)

/-- The place and the size of the shape of a node, by its number. -/
def transformAt (i : Nat) : Transform := (((c.placed s).toArray)[i]?.map (·.transform)).getD ⟨0, 0, 0, 0, 0⟩

/-- The figures of containers. -/
def containerFigures (fresh : Nat → String) : List Figure :=
  (c.containers s).zipIdx.map fun (g, k) => containerFigure fresh (2 * k) g.1 g.2

/-- The figures of nodes. -/
def nodeFigures (fresh : Nat → String) : List Figure :=
  (c.placed s).zipIdx.map fun (p, i) => nodeFigure fresh (c.arrows s) (c.firstShape s + 2 * i) i p

/-- The figures of edges. -/
def arrowFigures (fresh : Nat → String) : List Figure :=
  (c.arrows s).map fun (n, e) => arrowFigure fresh (fun i => fresh (c.firstShape s + 2 * i)) (c.transformAt s) n e

/-- The figures of a conversion, in order. -/
def figures (fresh : Nat → String) : List Figure :=
  c.containerFigures s fresh ++ c.nodeFigures s fresh ++ c.arrowFigures s fresh

/-- The figure of the node at a place. -/
theorem nodeFigure_mem_nodeFigures (fresh : Nat → String) {i : Nat} {p : PlacedNode} (hp : (c.placed s)[i]? = some p) :
    nodeFigure fresh (c.arrows s) (c.firstShape s + 2 * i) i p ∈ c.nodeFigures s fresh :=
  List.mem_map.2 ⟨(p, i), List.mem_zipIdx_iff_getElem?.2 hp, rfl⟩

/-- A figure is that of a container, of a node or of an arrow. -/
theorem mem_figures_iff (fresh : Nat → String) {f : Figure} : f ∈ c.figures s fresh ↔
    (∃ k g, (c.containers s)[k]? = some g ∧ f = containerFigure fresh (2 * k) g.1 g.2) ∨
    (∃ i p, (c.placed s)[i]? = some p ∧ f = nodeFigure fresh (c.arrows s) (c.firstShape s + 2 * i) i p) ∨
    ∃ n e, (n, e) ∈ c.arrows s ∧
      f = arrowFigure fresh (fun i => fresh (c.firstShape s + 2 * i)) (c.transformAt s) n e := by
  rw [figures, List.mem_append, List.mem_append, or_assoc]
  refine or_congr ?_ (or_congr ?_ ?_)
  · constructor
    · intro hf
      obtain ⟨⟨g, k⟩, hg, rfl⟩ := List.mem_map.1 hf
      exact ⟨k, g, List.mem_zipIdx_iff_getElem?.1 hg, rfl⟩
    · rintro ⟨k, g, hg, rfl⟩
      exact List.mem_map.2 ⟨(g, k), List.mem_zipIdx_iff_getElem?.2 hg, rfl⟩
  · constructor
    · intro hf
      obtain ⟨⟨p, i⟩, hp, rfl⟩ := List.mem_map.1 hf
      exact ⟨i, p, List.mem_zipIdx_iff_getElem?.1 hp, rfl⟩
    · rintro ⟨i, p, hp, rfl⟩
      exact c.nodeFigure_mem_nodeFigures s fresh hp
  · constructor
    · intro hf
      obtain ⟨⟨n, e⟩, he, rfl⟩ := List.mem_map.1 hf
      exact ⟨n, e, he, rfl⟩
    · rintro ⟨n, e, he, rfl⟩
      exact List.mem_map.2 ⟨(n, e), he, rfl⟩

/-- A conversion is made of figures. -/
theorem convert_eq_flatMap (fresh : Nat → String) :
    c.convert fresh s = (c.figures s fresh).flatMap (·.elements fresh) := by
  have hcontainers : ((c.containers s).mapIdx fun k g => containerElements fresh (2 * k) g.1 g.2).flatten =
      (c.containerFigures s fresh).flatMap (·.elements fresh) := by
    rw [List.mapIdx_eq_zipIdx_map, containerFigures, List.flatMap_map, List.flatMap_def]
    rfl
  have hnodes : ((c.placed s).mapIdx fun i p =>
      nodeElements fresh (c.arrows s) (c.firstShape s + 2 * i) i p).flatten =
      (c.nodeFigures s fresh).flatMap (·.elements fresh) := by
    rw [List.mapIdx_eq_zipIdx_map, nodeFigures, List.flatMap_map, List.flatMap_def]
    rfl
  have harrows : (c.arrows s).flatMap (fun a =>
      arrowElements fresh (fun i => fresh (c.firstShape s + 2 * i)) (c.transformAt s) a.1 a.2) =
      (c.arrowFigures s fresh).flatMap (·.elements fresh) := by
    rw [arrowFigures, List.flatMap_map]
    apply List.flatMap_congr
    rintro ⟨n, e⟩ _
    cases h : e.edge.label? <;> simp [arrowElements, arrowFigure, Figure.elements, Figure.text?, h]
  rw [figures, List.flatMap_append, List.flatMap_append, ← hcontainers, ← hnodes, ← harrows]
  rfl

/-- The elements of a conversion are main elements and the texts bound to these. -/
theorem mem_convert_iff {fresh : Nat → String} {e : Element} : e ∈ c.convert fresh s ↔
    ∃ f ∈ c.figures s fresh, e = f.main ∨
      ∃ content, f.label? = some content ∧ e = labelOf (fresh (f.place + 1)) content f.main.id f.main.transform := by
  have htext : ∀ f : Figure, e ∈ (f.text? fresh).toList ↔
      ∃ content, f.label? = some content ∧ e = labelOf (fresh (f.place + 1)) content f.main.id f.main.transform := by
    intro f
    rw [Option.mem_toList, Figure.text?, Option.map_eq_some_iff]
    simp only [eq_comm]
  simp only [convert_eq_flatMap, List.mem_flatMap, Figure.elements, List.mem_cons, htext]

/-- The boxes of groups with other ids are those boxes under the other ids. -/
theorem containerFigures_natural (σ : String → String) (fresh : Nat → String) :
    c.containerFigures s (σ ∘ fresh) = (c.containerFigures s fresh).map (·.mapIds σ) := by
  rw [containerFigures, containerFigures, List.map_map]
  rfl

/-- The shapes of nodes with other ids are those shapes under the other ids. -/
theorem nodeFigures_natural (σ : String → String) (fresh : Nat → String) :
    c.nodeFigures s (σ ∘ fresh) = (c.nodeFigures s fresh).map (·.mapIds σ) := by
  rw [nodeFigures, nodeFigures, List.map_map]
  apply List.map_congr_left
  rintro ⟨p, i⟩ _
  have hkind : (kindOf p.node.shape).mapIds σ = kindOf p.node.shape := by
    cases p.node.shape <;> rfl
  simp [nodeFigure, Figure.mapIds, Element.mapIds, hkind, boundText]

/-- The arrows with other ids are those arrows under the other ids. -/
theorem arrowFigures_natural (σ : String → String) (fresh : Nat → String) :
    c.arrowFigures s (σ ∘ fresh) = (c.arrowFigures s fresh).map (·.mapIds σ) := by
  rw [arrowFigures, arrowFigures, List.map_map]
  apply List.map_congr_left
  rintro ⟨n, e⟩ _
  cases h : e.edge.label? <;>
    simp [arrowFigure, Figure.mapIds, Element.mapIds, Element.Kind.mapIds, h, boundText]

/-- Other ids, the same figures. -/
theorem figures_natural (σ : String → String) (fresh : Nat → String) :
    c.figures s (σ ∘ fresh) = (c.figures s fresh).map (·.mapIds σ) := by
  rw [figures, figures, List.map_append, List.map_append, containerFigures_natural, nodeFigures_natural,
    arrowFigures_natural]

/-- Other ids, the same elements. -/
theorem convert_natural (σ : String → String) (fresh : Nat → String) :
    c.convert (σ ∘ fresh) s = (c.convert fresh s).map (·.mapIds σ) := by
  rw [convert_eq_flatMap, convert_eq_flatMap, figures_natural, List.flatMap_map, List.map_flatMap]
  simp only [Figure.elements_mapIds]

/-! ## Places -/

/-- The slots of containers. -/
def containerSlots : List Slot := (c.containers s).zipIdx.map fun (g, k) => ⟨2 * k, some g.1⟩

/-- The slots of nodes. -/
def nodeSlots : List Slot := (c.placed s).zipIdx.map fun (p, i) => ⟨c.firstShape s + 2 * i, some p.node.id⟩

/-- The slots of edges. -/
def arrowSlots : List Slot := (c.arrows s).map fun (n, e) => ⟨n, e.edge.label?⟩

/-- The slots of a conversion, in order. They do not depend on the ids. -/
def slots : List Slot := c.containerSlots s ++ c.nodeSlots s ++ c.arrowSlots s

/-- The places and labels of the figures do not depend on the ids. -/
theorem map_toSlot_figures (fresh : Nat → String) : (c.figures s fresh).map (·.toSlot) = c.slots s := by
  rw [figures, List.map_append, List.map_append, containerFigures, nodeFigures, arrowFigures, List.map_map,
    List.map_map, List.map_map]
  rfl

/-- The places of slots that have a text each. -/
theorem flatMap_places_zipIdx {slot : α × Nat → Slot} (first k : Nat)
    (h : ∀ x i, (slot (x, i)).places = [first + 2 * i, first + 2 * i + 1]) (xs : List α) :
    ((xs.zipIdx k).map slot).flatMap Slot.places = List.range' (first + 2 * k) (2 * xs.length) := by
  induction xs generalizing k with
  | nil => rfl
  | cons x xs ih =>
    have hlength : 2 * (x :: xs).length = 2 * xs.length + 1 + 1 := by
      simp only [List.length_cons]
      omega
    rw [List.zipIdx_cons, List.map_cons, List.flatMap_cons, ih, h, hlength, List.range'_succ, List.range'_succ]
    rfl

/-- The places of arrows and their labels. -/
theorem flatMap_places_numberEdges (n : Nat) (es : List JoinedEdge) :
    ∃ m, ((numberEdges n es).map fun (k, e) => (⟨k, e.edge.label?⟩ : Slot)).flatMap Slot.places = List.range' n m := by
  induction es generalizing n with
  | nil => exact ⟨0, rfl⟩
  | cons e es ih =>
    rw [numberEdges, List.map_cons, List.flatMap_cons]
    cases hl : e.edge.label? with
    | none =>
      obtain ⟨m, hm⟩ := ih (n + 1)
      exact ⟨m + 1, by simp [hm, hl, Slot.places, List.range'_succ]⟩
    | some label =>
      obtain ⟨m, hm⟩ := ih (n + 2)
      exact ⟨m + 1 + 1, by simp [hm, hl, Slot.places, List.range'_succ]⟩

/-- The places of all elements. -/
def places : List Nat := (c.slots s).flatMap Slot.places

/-- No two elements have the same place. -/
theorem places_nodup : (c.places s).Nodup := by
  have hcontainers : (c.containerSlots s).flatMap Slot.places = List.range' 0 (c.firstShape s) := by
    rw [containerSlots, flatMap_places_zipIdx 0 0]
    · rfl
    · rintro x i
      simp [Slot.places]
  have hnodes : (c.nodeSlots s).flatMap Slot.places = List.range' (c.firstShape s) (2 * (c.placed s).length) :=
    flatMap_places_zipIdx _ 0 (fun _ _ => rfl) _
  obtain ⟨m, harrows⟩ : ∃ m, (c.arrowSlots s).flatMap Slot.places =
      List.range' (c.firstShape s + 2 * (c.placed s).length) m := flatMap_places_numberEdges _ _
  have hall : c.places s = List.range' 0 (c.firstShape s + 2 * (c.placed s).length + m) := by
    rw [places, slots, List.flatMap_append, List.flatMap_append, hcontainers, hnodes, harrows,
      ← List.range'_append_1, ← List.range'_append_1, Nat.zero_add, Nat.zero_add]
  rw [hall]
  exact List.nodup_range'

/-! ## Ids -/

/-- The main element of a figure has the id of its place and is bound to nothing. -/
theorem figures_main {fresh : Nat → String} {f : Figure} (hf : f ∈ c.figures s fresh) :
    f.main.id = fresh f.place ∧ f.main.container? = none := by
  obtain ⟨k, g, -, rfl⟩ | ⟨i, p, -, rfl⟩ | ⟨n, e, -, rfl⟩ := (c.mem_figures_iff s fresh).1 hf
  · exact ⟨rfl, rfl⟩
  · refine ⟨rfl, ?_⟩
    cases hshape : p.node.shape <;> simp [nodeFigure, Element.container?, kindOf, hshape]
  · exact ⟨rfl, rfl⟩

/-- The ids of the elements of a figure. -/
theorem map_id_elements {fresh : Nat → String} {f : Figure} (hf : f.main.id = fresh f.place) :
    (f.elements fresh).map (·.id) = f.places.map fresh := by
  cases h : f.label? <;> simp [Figure.elements, Figure.text?, Slot.places, h, hf, labelOf]

/-- Every element has the id of its place. -/
theorem map_id_convert (fresh : Nat → String) : (c.convert fresh s).map (·.id) = (c.places s).map fresh := by
  rw [convert_eq_flatMap, places, ← c.map_toSlot_figures s fresh, List.map_flatMap, List.flatMap_map, List.map_flatMap]
  exact List.flatMap_congr fun f hf => map_id_elements (c.figures_main s hf).1

/-- Where no two ids of the supply are equal no two elements have the same. -/
theorem map_id_convert_nodup {fresh : Nat → String} (hfresh : Function.Injective fresh) :
    ((c.convert fresh s).map (·.id)).Nodup := by
  rw [map_id_convert]
  exact (c.places_nodup s).map hfresh

/-! ## Edges and their ends -/

/-- The ends of a joined edge are the nodes at their numbers. -/
theorem mem_joinedEdges {placed : List PlacedNode} {edges : List Skeleton.Edge} {e : JoinedEdge}
    (h : e ∈ joinedEdges placed edges) :
    e.edge ∈ edges ∧ (∃ p, placed[e.source]? = some p ∧ p.node.id = e.edge.source) ∧
      ∃ p, placed[e.target]? = some p ∧ p.node.id = e.edge.target := by
  obtain ⟨edge, hedge, he⟩ := List.mem_filterMap.1 h
  split at he
  · rename_i i j hi hj
    cases he
    obtain ⟨p, hp, hpid⟩ := getElem?_of_lastIndex? hi
    obtain ⟨q, hq, hqid⟩ := getElem?_of_lastIndex? hj
    exact ⟨hedge, ⟨p, hp, by simpa using hpid⟩, ⟨q, hq, by simpa using hqid⟩⟩
  · cases he

/-- Edges are joined if both ends are nodes. -/
theorem map_edge_joinedEdges (placed : List PlacedNode) (edges : List Skeleton.Edge) :
    (joinedEdges placed edges).map (·.edge) = edges.filter fun e =>
      e.source ∈ placed.map (·.node.id) ∧ e.target ∈ placed.map (·.node.id) := by
  rw [joinedEdges, List.map_filterMap, ← List.filterMap_eq_filter]
  refine List.filterMap_congr fun e _ => ?_
  rw [Option.guard_apply]
  by_cases hsource : e.source ∈ placed.map (·.node.id)
  · by_cases htarget : e.target ∈ placed.map (·.node.id)
    · obtain ⟨p, hp, hpid⟩ := List.mem_map.1 hsource
      obtain ⟨q, hq, hqid⟩ := List.mem_map.1 htarget
      obtain ⟨i, hi⟩ := exists_lastIndex? (p := (·.node.id == e.source)) hp (by simpa using hpid)
      obtain ⟨j, hj⟩ := exists_lastIndex? (p := (·.node.id == e.target)) hq (by simpa using hqid)
      simp only [hi, hj, hsource, htarget, and_self, decide_true, if_true, Option.map_some]
    · have hj : lastIndex? (·.node.id == e.target) placed = none := lastIndex?_eq_none htarget
      simp only [hj, htarget, and_false, decide_false, Bool.false_eq_true, if_false]
      cases lastIndex? (·.node.id == e.source) placed <;> rfl
  · have hi : lastIndex? (·.node.id == e.source) placed = none := lastIndex?_eq_none hsource
    simp only [hi, hsource, false_and, decide_false, Bool.false_eq_true, if_false, Option.map_none]

/-- Numbering edges leaves them in order. -/
theorem map_snd_numberEdges (n : Nat) (es : List JoinedEdge) : (numberEdges n es).map (·.2) = es := by
  induction es generalizing n with
  | nil => rfl
  | cons e es ih => rw [numberEdges, List.map_cons, ih]

/-- The arrows are those of the joined edges. -/
theorem map_snd_arrows : (c.arrows s).map (·.2) = joinedEdges (c.placed s) s.edges := map_snd_numberEdges _ _

/-- The ends of an arrow are the nodes at their numbers. -/
theorem ends_of_mem_arrows {n : Nat} {e : JoinedEdge} (h : (n, e) ∈ c.arrows s) :
    (∃ p, (c.placed s)[e.source]? = some p ∧ p.node.id = e.edge.source) ∧
      ∃ p, (c.placed s)[e.target]? = some p ∧ p.node.id = e.edge.target := by
  have hjoined : e ∈ joinedEdges (c.placed s) s.edges := by
    rw [← map_snd_arrows]
    exact List.mem_map.2 ⟨(n, e), h, rfl⟩
  exact (mem_joinedEdges hjoined).2

/-- There is an arrow for every edge between nodes, in order. -/
theorem map_edge_arrows : (c.arrows s).map (·.2.edge) = s.joined := by
  have hids : ∀ id, id ∈ (c.placed s).map (·.node.id) ↔ id ∈ s.nodes.map (·.id) := fun _ =>
    (c.map_id_placed_perm s).mem_iff
  have hedges := map_edge_joinedEdges (c.placed s) s.edges
  rw [← map_snd_arrows, List.map_map] at hedges
  simp only [hids] at hedges
  exact hedges

/-- Nothing is made of a skeleton without nodes, and only of such a one. -/
theorem convert_eq_nil_iff {fresh : Nat → String} : c.convert fresh s = [] ↔ s.nodes = [] := by
  have hplaced : c.placed s = [] ↔ s.nodes = [] := by
    rw [← List.map_eq_nil_iff (f := fun p : PlacedNode => p.node)]
    exact ⟨fun h => (h ▸ c.placed_perm s).nil_eq.symm, fun h => (h ▸ c.placed_perm s).eq_nil⟩
  have hcontainers : s.nodes = [] → c.containers s = [] := by
    intro h
    rw [← List.map_eq_nil_iff (f := fun g : String × Transform => g.1), map_fst_containers, filledGroups, h]
    exact List.filter_eq_nil_iff.2 fun _ _ => Bool.false_ne_true
  have harrows : s.nodes = [] → c.arrows s = [] := by
    intro h
    rw [← List.map_eq_nil_iff (f := fun x : Nat × JoinedEdge => x.2.edge), map_edge_arrows, Skeleton.joined, h]
    exact List.filter_eq_nil_iff.2 fun _ _ => by simp
  rw [convert_eq_flatMap, List.flatMap_eq_nil_iff]
  constructor
  · intro h
    have hfigures : c.figures s fresh = [] := List.eq_nil_iff_forall_not_mem.2 fun f hf => List.cons_ne_nil _ _ (h f hf)
    rw [figures, nodeFigures] at hfigures
    exact hplaced.1 (by simpa using (List.append_eq_nil_iff.1 (List.append_eq_nil_iff.1 hfigures).1).2)
  · intro h f hf
    rw [figures, containerFigures, nodeFigures, arrowFigures, hplaced.2 h, hcontainers h, harrows h] at hf
    cases hf

/-! ## References -/

/-- The places of a slot are places of elements. -/
theorem mem_places_of_mem_slots {t : Slot} (ht : t ∈ c.slots s) : ∀ n ∈ t.places, n ∈ c.places s := fun _ hn =>
  List.mem_flatMap.2 ⟨t, ht, hn⟩

/-- The places of a figure are places of elements. -/
theorem mem_places_of_mem_figures {fresh : Nat → String} {f : Figure} (hf : f ∈ c.figures s fresh) :
    ∀ n ∈ f.places, n ∈ c.places s := by
  apply c.mem_places_of_mem_slots s
  rw [← c.map_toSlot_figures s fresh]
  exact List.mem_map.2 ⟨f, hf, rfl⟩

/-- The place of the shape of a node, by its number. -/
theorem shape_mem_places {i : Nat} {p : PlacedNode} (h : (c.placed s)[i]? = some p) :
    c.firstShape s + 2 * i ∈ c.places s := by
  have hmem : (⟨c.firstShape s + 2 * i, some p.node.id⟩ : Slot) ∈ c.slots s := by
    refine List.mem_append_left _ (List.mem_append_right _ (List.mem_map.2 ⟨(p, i), ?_, rfl⟩))
    exact List.mem_zipIdx_iff_getElem?.2 h
  exact c.mem_places_of_mem_slots s hmem _ (by simp [Slot.places])

/-- The place of an arrow is a place of an element. -/
theorem arrow_mem_places {n : Nat} {e : JoinedEdge} (h : (n, e) ∈ c.arrows s) : n ∈ c.places s := by
  have hmem : (⟨n, e.edge.label?⟩ : Slot) ∈ c.slots s := List.mem_append_right _ (List.mem_map.2 ⟨(n, e), h, rfl⟩)
  exact c.mem_places_of_mem_slots s hmem _ (by simp [Slot.places])

/-- A container refers to its own text. -/
theorem ids_containerFigures {fresh : Nat → String} {f : Figure} (hf : f ∈ c.containerFigures s fresh) :
    ∀ id ∈ f.main.ids, ∃ n ∈ c.places s, id = fresh n := by
  have hplaces := c.mem_places_of_mem_figures s (List.mem_append_left _ (List.mem_append_left _ hf))
  obtain ⟨⟨g, k⟩, -, rfl⟩ := List.mem_map.1 hf
  intro id hid
  simp only [containerFigure, Element.ids, Element.Kind.refs, boundText, List.map_cons, List.map_nil,
    List.nil_append, List.mem_cons, List.not_mem_nil, or_false] at hid
  rcases hid with rfl | rfl
  · exact ⟨_, hplaces _ (by simp [containerFigure, Slot.places]), rfl⟩
  · exact ⟨_, hplaces _ (by simp [containerFigure, Slot.places]), rfl⟩

/-- The shape of a node refers to the arrows at it and to its own text. -/
theorem ids_nodeFigures {fresh : Nat → String} {f : Figure} (hf : f ∈ c.nodeFigures s fresh) :
    ∀ id ∈ f.main.ids, ∃ n ∈ c.places s, id = fresh n := by
  have hplaces := c.mem_places_of_mem_figures s (List.mem_append_left _ (List.mem_append_right _ hf))
  obtain ⟨⟨p, i⟩, -, rfl⟩ := List.mem_map.1 hf
  have hrefs : (kindOf p.node.shape).refs = [] := by
    cases p.node.shape <;> rfl
  intro id hid
  simp only [nodeFigure, Element.ids, hrefs, boundText, List.map_append, List.map_map, List.map_cons, List.map_nil,
    List.nil_append, List.mem_cons, List.mem_append, List.mem_map, List.not_mem_nil, or_false] at hid
  rcases hid with rfl | ⟨⟨k, e⟩, hincident, rfl⟩ | rfl
  · exact ⟨_, hplaces _ (by simp [nodeFigure, Slot.places]), rfl⟩
  · exact ⟨k, c.arrow_mem_places s (List.mem_of_mem_filter hincident), rfl⟩
  · exact ⟨_, hplaces _ (by simp [nodeFigure, Slot.places]), rfl⟩

/-- An arrow refers to the shapes at its ends and to its label. -/
theorem ids_arrowFigures {fresh : Nat → String} {f : Figure} (hf : f ∈ c.arrowFigures s fresh) :
    ∀ id ∈ f.main.ids, ∃ n ∈ c.places s, id = fresh n := by
  have hplaces := c.mem_places_of_mem_figures s (List.mem_append_right _ hf)
  obtain ⟨⟨n, e⟩, harrow, rfl⟩ := List.mem_map.1 hf
  obtain ⟨⟨p, hp, -⟩, ⟨q, hq, -⟩⟩ := c.ends_of_mem_arrows s harrow
  have hbound : ∀ b ∈ (e.edge.label?.elim [] fun _ => [boundText (fresh (n + 1))]), ∃ m ∈ c.places s, b.id = fresh m := by
    cases hl : e.edge.label? with
    | none => simp
    | some label =>
      intro b hb
      rw [List.mem_singleton.1 hb]
      exact ⟨n + 1, hplaces _ (by simp [arrowFigure, Slot.places, hl]), rfl⟩
  intro id hid
  simp only [arrowFigure, Element.ids, Element.Kind.refs, Option.toList_some, List.cons_append, List.nil_append,
    List.mem_cons, List.mem_map] at hid
  rcases hid with rfl | rfl | rfl | ⟨b, hb, rfl⟩
  · exact ⟨n, c.arrow_mem_places s harrow, rfl⟩
  · exact ⟨_, c.shape_mem_places s hp, rfl⟩
  · exact ⟨_, c.shape_mem_places s hq, rfl⟩
  · exact hbound b hb

/-- Every id in the main element of a figure is that of an element. -/
theorem ids_main {fresh : Nat → String} {f : Figure} (hf : f ∈ c.figures s fresh) :
    ∀ id ∈ f.main.ids, ∃ n ∈ c.places s, id = fresh n := by
  rcases List.mem_append.1 hf with hf | hf
  · rcases List.mem_append.1 hf with hf | hf
    · exact c.ids_containerFigures s hf
    · exact c.ids_nodeFigures s hf
  · exact c.ids_arrowFigures s hf

/-- Every id in a conversion is that of one of its elements. -/
theorem ids_convert {fresh : Nat → String} {e : Element} (he : e ∈ c.convert fresh s) :
    ∀ id ∈ e.ids, ∃ n ∈ c.places s, id = fresh n := by
  obtain ⟨f, hf, rfl | ⟨content, hl, rfl⟩⟩ := (c.mem_convert_iff s).1 he
  · exact c.ids_main s hf
  · have hplaces := c.mem_places_of_mem_figures s hf
    intro id hid
    simp only [labelOf, Element.ids, Element.Kind.refs, Option.toList_some, List.map_nil, List.append_nil,
      List.mem_cons, List.not_mem_nil, or_false] at hid
    rcases hid with rfl | rfl
    · exact ⟨_, hplaces _ (by simp [Slot.places, hl]), rfl⟩
    · exact ⟨_, hplaces _ (by simp [Slot.places]), (c.figures_main s hf).1⟩

/-- Every conversion is the one with numbered ids, with other ids in the place of these. -/
theorem convert_eq_map_numbered (c : Layout) (name : Nat → String) (s : Skeleton) :
    c.convert name s = (c.convert numberedId s).map (·.mapIds (name ∘ Function.invFun numberedId)) := by
  rw [← convert_natural, Function.comp_assoc, Function.invFun_comp numberedId_injective, Function.comp_id]

/-- Only the ids at the places of elements count. -/
theorem convert_congr {name name' : Nat → String} (h : ∀ n ∈ c.places s, name n = name' n) :
    c.convert name s = c.convert name' s := by
  rw [c.convert_eq_map_numbered name, c.convert_eq_map_numbered name']
  apply List.map_congr_left
  intro e he
  apply Element.mapIds_congr
  intro id hid
  obtain ⟨n, hn, rfl⟩ := c.ids_convert s he id hid
  rw [Function.comp_apply, Function.comp_apply, Function.leftInverse_invFun numberedId_injective n]
  exact h n hn

end Layout

end Whiteboard
