import Whiteboard.Proofs.Canvas.Naming

/-!
# What is drawn of a skeleton

Main statement: the elements made from a skeleton are a shape for each node, a container for each group with members and an arrow
for each edge between nodes, each with its text, and nothing else; and references between them go both ways
(`Layout.isDrawing_convert`).

An element lists what is bound to it, and the other way round a text says what it is bound to and an arrow where it ends. The two
are made apart from each other, one by the places of shapes among the placed nodes and the other by ids. That they agree is seen
on the figures: what the main element of a figure lists is its own text and the arrows that end at its place
(`Layout.bound_figures`), and ids are as distinct as places are.
-/

namespace Whiteboard

/-- The content of the texts that are bound to an element. -/
def textsOf (es : List Element) (id : String) : List String :=
  (es.filter (·.container? == some id)).filterMap (·.text?)

/-- What belongs to an element, and in which way: a text that is bound to it or an arrow that ends at it. -/
def IsBoundTo (es : List Element) (e : Element) (b : Element.Bound) : Prop :=
  ∃ e' ∈ es, e'.id = b.id ∧
    match b.kind with
    | .text => e'.container? = some e.id
    | .arrow => ∃ start finish, e'.ends? = some (start, finish) ∧ (e.id = start ∨ e.id = finish)

/-- A drawing of a skeleton: a shape for each node, a container for each listed group with members, an arrow for each edge
between nodes, and the texts of these. A decision is a diamond, a circle or an ellipse is an ellipse, and every other node is a
rectangle, as every container is. Shapes and containers are given by the ids of their elements. No reference leads out of the
drawing, and an element lists all that belongs to it and nothing else, each once. -/
structure IsDrawing (s : Skeleton) (es : List Element) (shapeOf boxOf : String → String) : Prop where
  shapes : ((es.filter (·.isShape)).map (·.id)).Perm ((Layout.filledGroups s).map boxOf ++ s.nodes.map fun n => shapeOf n.id)
  node : ∀ n ∈ s.nodes, ∃ e ∈ es, e.id = shapeOf n.id ∧ e.groupIds = n.group?.toList ∧ textsOf es e.id = [n.id] ∧
    e.kind = match n.shape with
      | .decision => .diamond
      | .circle | .ellipse => .ellipse
      | .rectangle | .rounded | .stadium | .hexagon => .rectangle
  group : ∀ g ∈ Layout.filledGroups s, ∃ e ∈ es, e.id = boxOf g ∧ e.kind = .rectangle ∧ textsOf es e.id = [g]
  arrows : List.Forall₂ (fun edge a =>
      a.kind = .arrow (some (shapeOf edge.source)) (some (shapeOf edge.target)) edge.dashed ∧
      textsOf es a.id = edge.label?.toList)
    s.joined (es.filter (·.isArrow))
  text : ∀ e ∈ es, e.isShape = false → e.isArrow = false →
    ∃ owner ∈ es, (owner.isShape = true ∨ owner.isArrow = true) ∧ e.text?.isSome = true ∧ e.container? = some owner.id
  closed : ∀ e ∈ es, ∀ id ∈ e.ids, ∃ e' ∈ es, e'.id = id
  bound_nodup : ∀ e ∈ es, (e.bound.map (·.id)).Nodup
  mem_bound : ∀ e ∈ es, ∀ b, b ∈ e.bound ↔ IsBoundTo es e b

/-- The arrows of a drawing end at the shapes of the nodes that their edges join. -/
theorem IsDrawing.map_ends? {s : Skeleton} {es : List Element} {shapeOf boxOf : String → String} (h : IsDrawing s es shapeOf boxOf) :
    (es.filter (·.isArrow)).map (·.ends?) = s.joined.map fun e => some (shapeOf e.source, shapeOf e.target) := by
  symm
  rw [← List.forall₂_eq_eq_eq, List.forall₂_map_left_iff, List.forall₂_map_right_iff]
  refine h.arrows.imp fun e a ha => ?_
  rw [Element.ends?, ha.1]

namespace Layout

open Whiteboard.Convert Whiteboard.Remap

/-! ## What an element lists -/

section

variable (c : Layout) (s : Skeleton)

/-- The arrows that end at a shape, which is given by its place. -/
def arrowsAt (n : Nat) : List (Nat × JoinedEdge) :=
  (c.arrows s).filter fun (_, e) => c.firstShape s + 2 * e.source == n || c.firstShape s + 2 * e.target == n

variable {c s} {fresh : Nat → String} {f : Figure}

/-- The arrows at a place are those that start or end there. -/
theorem mem_arrowsAt {x : Nat × JoinedEdge} {n : Nat} : x ∈ c.arrowsAt s n ↔
    x ∈ c.arrows s ∧ (c.firstShape s + 2 * x.2.source = n ∨ c.firstShape s + 2 * x.2.target = n) := by
  rw [arrowsAt, List.mem_filter, Bool.or_eq_true, beq_iff_eq, beq_iff_eq]

/-- Edges are numbered from the given number on. -/
theorem le_of_mem_numberEdges {n k : Nat} {e : JoinedEdge} {es : List JoinedEdge} (h : (k, e) ∈ numberEdges n es) : n ≤ k := by
  induction es generalizing n with
  | nil => cases h
  | cons e' es ih =>
    rw [numberEdges, List.mem_cons] at h
    rcases h with h | h
    · cases h
      exact le_refl _
    · have := ih h
      split at this <;> omega

/-- Arrows end at the shapes of nodes only. -/
theorem arrowsAt_eq_nil {n : Nat} (h : n < c.firstShape s ∨ c.firstShape s + 2 * (c.placed s).length ≤ n) :
    c.arrowsAt s n = [] := by
  refine List.filter_eq_nil_iff.2 fun x hx => ?_
  obtain ⟨⟨p, hp, -⟩, ⟨q, hq, -⟩⟩ := c.ends_of_mem_arrows s hx
  have hsource := (List.getElem?_eq_some_iff.1 hp).1
  have htarget := (List.getElem?_eq_some_iff.1 hq).1
  simp only [Bool.or_eq_true, beq_iff_eq]
  omega

/-- The main element of a figure lists the arrows that end at it, and then its text. -/
theorem bound_figures (hf : f ∈ c.figures s fresh) : f.main.bound =
    (c.arrowsAt s f.place).map (fun x => ⟨fresh x.1, .arrow⟩) ++
      (f.label?.map fun _ => boundText (fresh (f.place + 1))).toList := by
  obtain ⟨k, g, hg, rfl⟩ | ⟨i, p, -, rfl⟩ | ⟨n, e, harrow, rfl⟩ := (c.mem_figures_iff s fresh).1 hf
  · have hk := (List.getElem?_eq_some_iff.1 hg).1
    have hnone : c.arrowsAt s (2 * k) = [] := arrowsAt_eq_nil (.inl (by rw [firstShape]; omega))
    simp [containerFigure, hnone]
  · have hincident : c.arrowsAt s (c.firstShape s + 2 * i) =
        (c.arrows s).filter fun (_, e) => e.source == i || e.target == i := by
      refine List.filter_congr fun x _ => ?_
      rw [Bool.eq_iff_iff]
      simp only [Bool.or_eq_true, beq_iff_eq]
      omega
    simp [nodeFigure, hincident]
  · have hnone : c.arrowsAt s n = [] := arrowsAt_eq_nil (.inr (le_of_mem_numberEdges harrow))
    cases hl : e.edge.label? <;> simp [arrowFigure, hnone, hl]

/-! ## What belongs to an element -/

theorem main_mem_convert (hf : f ∈ c.figures s fresh) : f.main ∈ c.convert fresh s := (c.mem_convert_iff s).2 ⟨f, hf, .inl rfl⟩

/-- What has the id of a main element is that element. -/
theorem eq_main (hfresh : ((c.convert fresh s).map (·.id)).Nodup) {e : Element} (he : e ∈ c.convert fresh s)
    (hf : f ∈ c.figures s fresh) (hid : e.id = f.main.id) : e = f.main :=
  List.inj_on_of_nodup_map hfresh he (main_mem_convert hf) hid

/-- A text is bound to the main element of its figure. -/
theorem exists_owner_of_container? {e : Element} (he : e ∈ c.convert fresh s) {id : String} (hid : e.container? = some id) :
    ∃ f ∈ c.figures s fresh, id = f.main.id := by
  obtain ⟨f, hf, rfl | ⟨content, -, rfl⟩⟩ := (c.mem_convert_iff s).1 he
  · rw [container?_figures f hf] at hid
    cases hid
  · exact ⟨f, hf, (Option.some.inj hid).symm⟩

/-- The ends of an arrow are the shapes that it is made with. -/
theorem exists_arrow_of_ends? {e : Element} (he : e ∈ c.convert fresh s) {start finish : String}
    (hends : e.ends? = some (start, finish)) :
    ∃ x ∈ c.arrows s, e.id = fresh x.1 ∧ start = fresh (c.firstShape s + 2 * x.2.source) ∧
      finish = fresh (c.firstShape s + 2 * x.2.target) := by
  have harrow : e.isArrow = true := by
    rw [← Bool.not_eq_false]
    intro h
    rw [Element.ends?_of_not_isArrow h] at hends
    cases hends
  have hmem := List.mem_filter.2 ⟨he, harrow⟩
  rw [filter_isArrow_convert, arrowFigures, List.map_map] at hmem
  obtain ⟨x, hx, rfl⟩ := List.mem_map.1 hmem
  cases hends
  exact ⟨x, hx, rfl, rfl, rfl⟩

/-- Nothing belongs to a text. -/
theorem exists_main_of_isBoundTo {e : Element} {b : Element.Bound} (h : IsBoundTo (c.convert fresh s) e b) :
    ∃ f ∈ c.figures s fresh, e.id = f.main.id := by
  have hshape : ∀ {i p}, (c.placed s)[i]? = some p → ∃ f ∈ c.figures s fresh, fresh (c.firstShape s + 2 * i) = f.main.id :=
    fun hp => ⟨_, (c.mem_figures_iff s fresh).2 (.inr (.inl ⟨_, _, hp, rfl⟩)), rfl⟩
  obtain ⟨e', he', -, hb⟩ := h
  cases hkind : b.kind with
  | text =>
    rw [hkind] at hb
    exact exists_owner_of_container? he' hb
  | arrow =>
    rw [hkind] at hb
    obtain ⟨start, finish, hends, hid⟩ := hb
    obtain ⟨x, hx, -, hstart, hfinish⟩ := exists_arrow_of_ends? he' hends
    obtain ⟨⟨p, hp, -⟩, ⟨q, hq, -⟩⟩ := c.ends_of_mem_arrows s hx
    rcases hid with hid | hid
    · rw [hid, hstart]
      exact hshape hp
    · rw [hid, hfinish]
      exact hshape hq

/-- The text of a figure is all that is bound to its main element. -/
theorem filter_container?_convert (hfresh : ((c.convert fresh s).map (·.id)).Nodup) (hf : f ∈ c.figures s fresh) :
    (c.convert fresh s).filter (·.container? == some f.main.id) = (f.text? fresh).toList := by
  rw [convert_eq_flatMap]
  exact filter_container?_main container?_figures (List.Nodup.of_append_left (ids_nodup hfresh)) hf

/-- The text bound to a main element is the label of its figure. -/
theorem textsOf_main (hfresh : ((c.convert fresh s).map (·.id)).Nodup) (hf : f ∈ c.figures s fresh) :
    textsOf (c.convert fresh s) f.main.id = f.label?.toList := by
  rw [textsOf, filter_container?_convert hfresh hf]
  cases hl : f.label? <;> simp [Figure.text?, hl]

/-- What is bound to the main element of a figure is its text. -/
theorem container?_eq_main_iff (hfresh : ((c.convert fresh s).map (·.id)).Nodup) (hf : f ∈ c.figures s fresh) {e : Element} :
    e ∈ c.convert fresh s ∧ e.container? = some f.main.id ↔ f.text? fresh = some e := by
  rw [← Option.mem_toList (o := f.text? fresh), ← filter_container?_convert hfresh hf, List.mem_filter, beq_iff_eq]

/-- What belongs to the main element of a figure are the arrows that end at its place and its text. -/
theorem isBoundTo_main_iff (hfresh : ((c.convert fresh s).map (·.id)).Nodup) (hf : f ∈ c.figures s fresh)
    (b : Element.Bound) : IsBoundTo (c.convert fresh s) f.main b ↔
      (∃ x ∈ c.arrowsAt s f.place, (⟨fresh x.1, .arrow⟩ : Element.Bound) = b) ∨
        ∃ content, f.label? = some content ∧ boundText (fresh (f.place + 1)) = b := by
  have hmain := (c.figures_main s hf).1
  have hplace : f.place ∈ c.places s := c.mem_places_of_mem_figures s hf _ (by simp [Slot.places])
  have hshape : ∀ {i p}, (c.placed s)[i]? = some p →
      (f.main.id = fresh (c.firstShape s + 2 * i) ↔ c.firstShape s + 2 * i = f.place) := by
    intro i p hp
    rw [map_id_convert] at hfresh
    rw [hmain]
    exact ⟨fun h => (List.inj_on_of_nodup_map hfresh hplace (c.shape_mem_places s hp) h).symm, fun h => by rw [h]⟩
  obtain ⟨id, kind⟩ := b
  cases kind with
  | text =>
    constructor
    · rintro ⟨e, he, rfl, hcontainer⟩
      obtain ⟨content, hl, rfl⟩ := Option.map_eq_some_iff.1 ((container?_eq_main_iff hfresh hf).1 ⟨he, hcontainer⟩)
      exact .inr ⟨content, hl, rfl⟩
    · rintro (⟨x, -, hb⟩ | ⟨content, hl, hb⟩)
      · cases hb
      · cases hb
        have htext : f.text? fresh = some (labelOf (fresh (f.place + 1)) content f.main.id f.main.transform) := by
          rw [Figure.text?, hl, Option.map_some]
        obtain ⟨he, hcontainer⟩ := (container?_eq_main_iff hfresh hf).2 htext
        exact ⟨_, he, rfl, hcontainer⟩
  | arrow =>
    constructor
    · rintro ⟨e, he, rfl, start, finish, hends, hid⟩
      obtain ⟨x, hx, hid', rfl, rfl⟩ := exists_arrow_of_ends? he hends
      obtain ⟨⟨p, hp, -⟩, ⟨q, hq, -⟩⟩ := c.ends_of_mem_arrows s hx
      rw [hshape hp, hshape hq] at hid
      exact .inl ⟨x, mem_arrowsAt.2 ⟨hx, hid⟩, by rw [hid']⟩
    · rintro (⟨x, hx, hb⟩ | ⟨content, -, hb⟩)
      · cases hb
        obtain ⟨hx, hid⟩ := mem_arrowsAt.1 hx
        obtain ⟨⟨p, hp, -⟩, ⟨q, hq, -⟩⟩ := c.ends_of_mem_arrows s hx
        rw [← hshape hp, ← hshape hq] at hid
        have hf := (c.mem_figures_iff s fresh).2 (.inr (.inr ⟨_, _, hx, rfl⟩))
        exact ⟨_, main_mem_convert hf, rfl, _, _, rfl, hid⟩
      · cases hb

/-- Every element lists what belongs to it and nothing else. A text lists nothing, and nothing belongs to it, since it has the
id of no main element. -/
theorem mem_bound_iff (hfresh : ((c.convert fresh s).map (·.id)).Nodup) {e : Element} (he : e ∈ c.convert fresh s)
    (b : Element.Bound) : b ∈ e.bound ↔ IsBoundTo (c.convert fresh s) e b := by
  obtain ⟨f, hf, rfl | ⟨content, hl, rfl⟩⟩ := (c.mem_convert_iff s).1 he
  · rw [isBoundTo_main_iff hfresh hf, bound_figures hf, List.mem_append, List.mem_map, Option.mem_toList,
      Option.map_eq_some_iff]
  · refine ⟨fun hb => (List.not_mem_nil hb).elim, fun hb => ?_⟩
    obtain ⟨f', hf', hid⟩ := exists_main_of_isBoundTo hb
    have hmain := container?_figures f' hf'
    rw [← eq_main hfresh he hf' hid] at hmain
    cases hmain

/-- No element lists anything twice. -/
theorem bound_nodup (hfresh : ((c.convert fresh s).map (·.id)).Nodup) {e : Element} (he : e ∈ c.convert fresh s) :
    (e.bound.map (·.id)).Nodup := by
  obtain ⟨f, hf, rfl | ⟨content, hl, rfl⟩⟩ := (c.mem_convert_iff s).1 he
  · have hall := ids_nodup hfresh
    rw [map_id_figures, ← List.map_append] at hall
    have harrows : ((c.arrowsAt s f.place).map (·.1)).Sublist ((c.slots s).map (·.place)) := by
      refine (List.filter_sublist.map _).trans ?_
      rw [slots, arrowSlots, List.map_append, List.map_map]
      exact List.sublist_append_right _ _
    have htext : (f.label?.map fun _ => f.place + 1).toList.Sublist (c.textPlaces s) := by
      cases hl : f.label? with
      | none => exact List.nil_sublist _
      | some content =>
        refine List.singleton_sublist.2 (List.mem_filterMap.2 ⟨f.toSlot, ?_, by rw [hl]; rfl⟩)
        rw [← c.map_toSlot_figures s fresh]
        exact List.mem_map_of_mem hf
    have hids : f.main.bound.map (·.id) =
        ((c.arrowsAt s f.place).map (·.1) ++ (f.label?.map fun _ => f.place + 1).toList).map fresh := by
      rw [bound_figures hf]
      cases f.label? <;> simp [boundText]
    rw [hids]
    exact hall.sublist ((harrows.append htext).map fresh)
  · exact List.nodup_nil

end

/-! ## The drawing -/

variable (c : Layout) (fresh : Nat → String) (s : Skeleton)

/-- The id of the shape of a node. -/
def shapeOf (id : String) : String := fresh (c.firstShape s + 2 * ((c.placed s).map (·.node.id)).idxOf id)

/-- The id of the container of a group. -/
def boxOf (group : String) : String := fresh (2 * (filledGroups s).idxOf group)

variable {c fresh s}

/-- The shape of a node is the one at its place. -/
theorem shapeOf_eq (hids : (s.nodes.map (·.id)).Nodup) {i : Nat} {p : PlacedNode} (hp : (c.placed s)[i]? = some p) :
    shapeOf c fresh s p.node.id = fresh (c.firstShape s + 2 * i) := by
  rw [shapeOf, idxOf_map_of_getElem? ((c.map_id_placed_perm s).nodup_iff.2 hids) hp]

/-- There is one shape for each node and one for each group with members. -/
theorem map_id_shapes_perm (hids : (s.nodes.map (·.id)).Nodup) (hgroups : s.groups.Nodup) :
    (((c.convert fresh s).filter (·.isShape)).map (·.id)).Perm
      ((filledGroups s).map (boxOf fresh s) ++ s.nodes.map fun n => shapeOf c fresh s n.id) := by
  have hcontainers : (c.containerFigures s fresh).map (·.main.id) = (filledGroups s).map (boxOf fresh s) := by
    have hnodup : ((c.containers s).map (·.1)).Nodup := hgroups.sublist (c.containers_sublist s)
    have hplaces := map_snd_zipIdx hnodup fun k => fresh (2 * k)
    rw [map_fst_containers] at hplaces
    rw [containerFigures, List.map_map]
    exact hplaces
  have hnodes : (c.nodeFigures s fresh).map (·.main.id) = ((c.placed s).map (·.node.id)).map (shapeOf c fresh s) := by
    rw [nodeFigures, List.map_map]
    exact map_snd_zipIdx ((c.map_id_placed_perm s).nodup_iff.2 hids) fun i => fresh (c.firstShape s + 2 * i)
  have hshapes : (c.shapeFigures s fresh).map (·.main.id) =
      (filledGroups s).map (boxOf fresh s) ++ ((c.placed s).map (·.node.id)).map (shapeOf c fresh s) := by
    rw [shapeFigures, List.map_append, hcontainers, hnodes]
  have hperm := (c.map_id_placed_perm s).map (shapeOf c fresh s)
  rw [List.map_map (l := s.nodes)] at hperm
  rw [filter_isShape_convert, List.map_map]
  exact (List.Perm.of_eq hshapes).trans (hperm.append_left _)

/-- A drawing is complete and closed. Whatever the layout is, the elements made from a skeleton whose nodes and groups are
distinct, with distinct ids, are a drawing of it; and there are none only if there are no nodes. -/
theorem isDrawing_convert (c : Layout) (fresh : Nat → String) (s : Skeleton) (hids : (s.nodes.map (·.id)).Nodup)
    (hgroups : s.groups.Nodup) (hfresh : ((c.convert fresh s).map (·.id)).Nodup) :
    (∃ shapeOf boxOf, IsDrawing s (c.convert fresh s) shapeOf boxOf) ∧ (c.convert fresh s = [] ↔ s.nodes = []) := by
  refine ⟨⟨shapeOf c fresh s, boxOf fresh s, ?_⟩, c.convert_eq_nil_iff s⟩
  constructor
  case shapes => exact map_id_shapes_perm hids hgroups
  case node =>
    intro n hn
    obtain ⟨p, hp, rfl⟩ := List.mem_map.1 ((c.placed_perm s).mem_iff.2 hn)
    obtain ⟨i, hi⟩ := List.getElem?_of_mem hp
    have hf := (c.mem_figures_iff s fresh).2 (.inr (.inl ⟨_, _, hi, rfl⟩))
    exact ⟨_, main_mem_convert hf, (shapeOf_eq hids hi).symm, rfl, textsOf_main hfresh hf, rfl⟩
  case group =>
    intro g hg
    rw [← c.map_fst_containers s] at hg
    obtain ⟨box, hbox, rfl⟩ := List.mem_map.1 hg
    obtain ⟨k, hk⟩ := List.getElem?_of_mem hbox
    have hf := (c.mem_figures_iff s fresh).2 (.inl ⟨_, _, hk, rfl⟩)
    have hplace := idxOf_map_of_getElem? (hgroups.sublist (c.containers_sublist s)) hk
    rw [map_fst_containers] at hplace
    refine ⟨_, main_mem_convert hf, ?_, rfl, textsOf_main hfresh hf⟩
    rw [boxOf, hplace]
    rfl
  case arrows =>
    rw [filter_isArrow_convert, arrowFigures, ← c.map_edge_arrows s, List.map_map, List.forall₂_map_left_iff,
      List.forall₂_map_right_iff, List.forall₂_same]
    rintro ⟨n, e⟩ harrow
    obtain ⟨⟨p, hp, hsource⟩, ⟨q, hq, htarget⟩⟩ := c.ends_of_mem_arrows s harrow
    have hf := (c.mem_figures_iff s fresh).2 (.inr (.inr ⟨_, _, harrow, rfl⟩))
    refine ⟨?_, textsOf_main hfresh hf⟩
    rw [← hsource, ← htarget, shapeOf_eq hids hp, shapeOf_eq hids hq]
    rfl
  case text =>
    intro e he hshape harrow
    obtain ⟨f, hf, rfl | ⟨content, hl, rfl⟩⟩ := (c.mem_convert_iff s).1 he
    · rcases isShape_or_isArrow_figures hf with hmain | hmain
      · rw [hmain] at hshape
        cases hshape
      · rw [hmain] at harrow
        cases harrow
    · exact ⟨f.main, main_mem_convert hf, isShape_or_isArrow_figures hf, rfl, rfl⟩
  case closed =>
    intro e he id hid
    obtain ⟨n, hn, rfl⟩ := c.ids_convert s he id hid
    have hmem : fresh n ∈ (c.convert fresh s).map (·.id) := by
      rw [map_id_convert]
      exact List.mem_map_of_mem hn
    exact List.mem_map.1 hmem
  case bound_nodup => exact fun e he => bound_nodup hfresh he
  case mem_bound => exact fun e he b => mem_bound_iff hfresh he b

/-- Two edges between the same nodes, one of them dashed and with a label, a loop, and an edge to what is not there; a group
without members, and a member of a group that is not listed. -/
def knotted : Skeleton :=
  { direction := .leftRight
    nodes := [⟨"a", .circle, some "g"⟩, ⟨"b", .decision, none⟩, ⟨"c", .stadium, some "elsewhere"⟩]
    edges := [⟨"a_b", "a", "b", none, false⟩, ⟨"a_z", "a", "z", some "lost", false⟩, ⟨"a_b_2", "a", "b", some "twice", true⟩,
      ⟨"b_b", "b", "b", none, false⟩]
    groups := ["empty", "g"] }

/-- Everything between its nodes is drawn, and the group that has a member. -/
theorem isDrawing_convert_knotted :
    (knotted.nodes.map (·.id)).Nodup ∧ knotted.groups.Nodup ∧ ((({} : Layout).convert numberedId knotted).map (·.id)).Nodup ∧
    ∃ shapeOf boxOf, IsDrawing knotted (({} : Layout).convert numberedId knotted) shapeOf boxOf ∧
      (((({} : Layout).convert numberedId knotted).filter (·.isShape)).map (·.id)).Perm
        [boxOf "g", shapeOf "a", shapeOf "b", shapeOf "c"] ∧
      ((({} : Layout).convert numberedId knotted).filter (·.isArrow)).map (·.ends?) =
        [some (shapeOf "a", shapeOf "b"), some (shapeOf "a", shapeOf "b"), some (shapeOf "b", shapeOf "b")] ∧
      ({} : Layout).convert numberedId knotted ≠ [] := by
  have hids : (knotted.nodes.map (·.id)).Nodup := by decide
  have hgroups : knotted.groups.Nodup := by decide
  have hfresh := ({} : Layout).map_id_convert_nodup knotted numberedId_injective
  obtain ⟨⟨shapeOf, boxOf, hdrawing⟩, hempty⟩ := isDrawing_convert {} numberedId knotted hids hgroups hfresh
  exact ⟨hids, hgroups, hfresh, shapeOf, boxOf, hdrawing, hdrawing.shapes, hdrawing.map_ends?, mt hempty.1 (by decide)⟩

end Layout

end Whiteboard
