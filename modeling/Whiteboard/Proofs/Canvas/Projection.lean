import Mathlib.Data.List.Forall2
import Mathlib.Data.List.Infix
import Whiteboard.Canvas.Context
import Whiteboard.Canvas.Snapshot
import Whiteboard.Proofs.Canvas.Remapping

/-!
# The views of a scene agree

A generator is shown a scene without ids (`Context`), what it answers is compared with the scene as a diagram (`Snapshot`) and
checked against the ids on the canvas (`LiveIds`). Main statement: the three speak of the same nodes, edges and groups
(`Scene.viewsAgree`).

Ids may be repeated. A place in the list of nodes says which node is meant, an id does not; so an edge of the one view and that
of the other are matched by the id that stands at a place (`Context.Edge.Joins`).
-/

namespace Whiteboard

/-- An edge between places is the edge between the ids that stand there. -/
structure Context.Edge.Joins (e : Context.Edge) (ids : List String) (f : Snapshot.Edge) : Prop where
  label : e.label? = f.label?
  source : ids[e.source]? = some f.source
  target : ids[e.target]? = some f.target

/-- A group is that of a container: it has its label, and its members are the places of the nodes in the container. -/
structure Context.Group.IsAround (g : Context.Group) (s : Scene) (container : Element) : Prop where
  label : g.label = s.labelOf container.id
  mem_iff : ∀ i, i ∈ g.members ↔ ∃ node, s.nodes[i]? = some node ∧ container.transform.encloses node.transform

/-- A view without ids, a diagram and a list of ids are those of one scene. -/
structure Scene.ViewsAgree (s : Scene) (c : Context) (t : Snapshot) (live : LiveIds) : Prop where
  nodes_length : c.nodes.length = s.nodes.length ∧ t.nodes.length = s.nodes.length
  /-- Both views list the nodes of the scene in its order, with the same labels, and a node's index is its place. -/
  node : ∀ (i : Nat) (e : Element), s.nodes[i]? = some e → ∃ (m : Context.Node) (n : Snapshot.Node),
    c.nodes[i]? = some m ∧ t.nodes[i]? = some n ∧ m.index = i ∧ m.transform = e.transform ∧ n.id = e.id ∧ m.label = n.label
  /-- Both views list the same edges in the same order. -/
  edges : List.Forall₂ (·.Joins t.nodeIds ·) c.edges t.edges
  edges_lt : ∀ e ∈ c.edges, e.source < c.nodes.length ∧ e.target < c.nodes.length
  /-- A group lists some nodes by their places, in order and none of them twice. -/
  groups : ∀ g ∈ c.groups, g.members ≠ [] ∧ g.members.Pairwise (· < ·) ∧ ∀ i ∈ g.members, i < c.nodes.length
  /-- The group of a node is a container whose group in the other view lists that node. -/
  group : ∀ (i : Nat) (n : Snapshot.Node), t.nodes[i]? = some n → ∀ id ∈ n.group?, ∃ container ∈ s.containers, container.id = id ∧
    ∃ g ∈ c.groups, g.IsAround s container ∧ i ∈ g.members
  live : ∀ n ∈ t.nodes, n.id ∈ live.nodeIds

/-! ## Edges -/

namespace Context

/-- What is found is the last place of the id. -/
theorem lastPlace?_eq_some {id : String} {ids : List String} {k : Nat} (h : lastPlace? id ids = some k) :
    ids[k]? = some id ∧ ∀ j, k < j → ids[j]? ≠ some id := by
  obtain ⟨r, hr, rfl⟩ := Option.map_eq_some_iff.1 h
  obtain ⟨hlt, hid, hlater⟩ := List.findIdx?_eq_some_iff_getElem.1 hr
  rw [List.length_reverse] at hlt
  rw [List.getElem_reverse, beq_iff_eq] at hid
  refine ⟨?_, ?_⟩
  · rw [List.getElem?_eq_getElem (by omega), hid]
  · intro j hj hfound
    obtain ⟨hlt', hid'⟩ := List.getElem?_eq_some_iff.1 hfound
    refine hlater (ids.length - 1 - j) (by omega) ?_
    rw [List.getElem_reverse, beq_iff_eq, ← hid']
    congr 1
    omega

example : lastPlace? "a" ["a", "b", "a"] = some 2 := by decide

/-- An id has a last place if it is listed. -/
theorem isSome_lastPlace? (id : String) (ids : List String) : (lastPlace? id ids).isSome = ids.contains id := by
  rw [lastPlace?, Option.isSome_map, List.findIdx?_isSome, List.any_reverse, List.contains_eq_any_beq]
  simp only [BEq.comm]

/-- An arrow is an edge in both views, and then the same one, or in neither. -/
theorem rel_edge? (s : Scene) (ids : List String) (e : Element) :
    Option.Rel (fun e f => e.Joins ids f) (edge? s ids e) (Snapshot.edge? s ids e) := by
  unfold edge? Snapshot.edge?
  rcases e.ends? with - | ⟨start, finish⟩
  · exact .none
  · have hstart := isSome_lastPlace? start ids
    have hfinish := isSome_lastPlace? finish ids
    simp only [Option.bind_eq_bind, Option.bind_some, ← hstart, ← hfinish]
    cases hi : lastPlace? start ids with
    | none => exact .none
    | some i =>
      cases hj : lastPlace? finish ids with
      | none => exact .none
      | some j => exact .some ⟨rfl, (lastPlace?_eq_some hi).1, (lastPlace?_eq_some hj).1⟩

/-- Edges are between places that there are. -/
theorem lt_of_edge?_eq_some {s : Scene} {ids : List String} {arrow : Element} {e : Edge} (h : edge? s ids arrow = some e) :
    e.source < ids.length ∧ e.target < ids.length := by
  have hrel := rel_edge? s ids arrow
  rw [h] at hrel
  generalize Snapshot.edge? s ids arrow = f? at hrel
  cases hrel with
  | some hjoins => exact ⟨(List.getElem?_eq_some_iff.1 hjoins.source).1, (List.getElem?_eq_some_iff.1 hjoins.target).1⟩

/-! ## Groups -/

/-- The places of the nodes in a container. -/
theorem mem_places_iff {s : Scene} {container : Element} {i : Nat} :
    i ∈ (s.nodes.zipIdx.filter fun (node, _) => container.transform.encloses node.transform).map (·.2) ↔
      ∃ node, s.nodes[i]? = some node ∧ container.transform.encloses node.transform := by
  simp [List.mem_zipIdx_iff_getElem?]

/-- What a container's group is. -/
theorem of_group?_eq_some {s : Scene} {container : Element} {g : Group} (h : group? s container = some g) :
    g.IsAround s container ∧ g.members ≠ [] ∧ g.members.Pairwise (· < ·) := by
  simp only [group?] at h
  split at h
  · cases h
  · rename_i hinside
    cases h
    refine ⟨⟨rfl, fun i => mem_places_iff⟩, ?_, ?_⟩
    · intro hnone
      exact hinside (List.isEmpty_iff.2 (List.map_eq_nil_iff.1 hnone))
    · have hplaces : (s.nodes.zipIdx.map (·.2)).Pairwise (· < ·) := by
        rw [List.zipIdx_map_snd]
        exact List.pairwise_lt_range'
      exact hplaces.sublist (List.filter_sublist.map _)

/-- A container with a node in it has a group. -/
theorem exists_group?_of_encloses {s : Scene} {container node : Element} {i : Nat} (hnode : s.nodes[i]? = some node)
    (hin : container.transform.encloses node.transform) : ∃ g, group? s container = some g := by
  unfold group?
  rw [if_neg]
  · exact ⟨_, rfl⟩
  · intro hempty
    have hplace := mem_places_iff.2 ⟨node, hnode, hin⟩
    rw [List.isEmpty_iff.1 hempty] at hplace
    cases hplace

end Context

/-- What is taken is one of the elements. -/
theorem Snapshot.mem_of_smallest? {es : List Element} {b : Element} (h : smallest? es = some b) : b ∈ es := by
  cases es with
  | nil => cases h
  | cons e rest =>
    obtain rfl := Option.some.inj h
    induction rest using List.reverseRecOn with
    | nil => exact List.mem_singleton_self e
    | append_singleton rest c ih =>
      rw [List.foldl_append, List.foldl_cons, List.foldl_nil, ← List.cons_append]
      split
      · exact List.mem_append_right _ (List.mem_singleton_self c)
      · exact List.mem_append_left _ (ih rfl)

/-- The group of a node is a container around it. -/
theorem Snapshot.exists_container_of_group? {s : Scene} {node : Element} {id : String} (h : id ∈ (nodeOf s node).group?) :
    ∃ container ∈ s.containers, container.id = id ∧ container.transform.encloses node.transform := by
  obtain ⟨container, hsmallest, rfl⟩ := Option.map_eq_some_iff.1 h
  obtain ⟨hnamed, hin⟩ := List.mem_filter.1 (mem_of_smallest? hsmallest)
  exact ⟨container, List.mem_of_mem_filter hnamed, rfl, hin⟩

/-! ## Live ids -/

/-- The nodes of a snapshot have ids that are live. -/
theorem LiveIds.mem_nodeIds_ofScene {scene : Scene} {diagramText? : Option String} {id : String}
    (h : id ∈ (Snapshot.ofCanvas scene diagramText?).nodeIds) : id ∈ (LiveIds.ofScene scene).nodeIds := by
  obtain ⟨n, hn, rfl⟩ := List.mem_map.1 h
  obtain ⟨e, he, rfl⟩ := List.mem_map.1 hn
  obtain ⟨hmem, hnode⟩ := List.mem_filter.1 he
  have hshape : e.isShape = true := by
    by_contra hshape
    rw [Element.isNode_of_not_isShape (Bool.eq_false_iff.2 hshape)] at hnode
    cases hnode
  exact List.mem_eraseDups.2 (List.mem_map.2 ⟨e, List.mem_filter.2 ⟨hmem, hshape⟩, rfl⟩)

/-! ## Main statement -/

/-- Whatever the scene, also with repeated ids, arrows that lead nowhere and boxes in boxes, and whatever text it was made from:
what a generator is shown, the scene as a diagram and the live ids agree. -/
theorem Scene.viewsAgree (s : Scene) (diagramText? : Option String) :
    s.ViewsAgree (Context.ofScene s) (Snapshot.ofCanvas s diagramText?) (LiveIds.ofScene s) := by
  have hids : (Snapshot.ofCanvas s diagramText?).nodeIds = s.nodes.map (·.id) := List.map_map
  have hlength : (Context.ofScene s).nodes.length = s.nodes.length := List.length_mapIdx
  constructor
  case nodes_length => exact ⟨hlength, List.length_map _⟩
  case node =>
    intro i e he
    refine ⟨⟨i, e.kind.name, s.labelOf e.id, e.transform⟩, Snapshot.nodeOf s e, ?_, ?_, rfl, rfl, rfl, rfl⟩
    · rw [Context.ofScene, List.getElem?_mapIdx, he]
      rfl
    · rw [Snapshot.ofCanvas, List.getElem?_map, he]
      rfl
  case edges =>
    rw [hids]
    have hnodes : (s.nodes.map (Snapshot.nodeOf s)).map (·.id) = s.nodes.map (·.id) := List.map_map
    show List.Forall₂ _ (s.elements.filterMap _) (s.elements.filterMap (Snapshot.edge? s _))
    rw [hnodes]
    refine List.rel_filterMap ?_ (List.forall₂_same.2 fun _ _ => rfl)
    rintro e _ rfl
    exact Context.rel_edge? s _ e
  case edges_lt =>
    intro e he
    obtain ⟨arrow, -, harrow⟩ := List.mem_filterMap.1 he
    have hlt := Context.lt_of_edge?_eq_some harrow
    rwa [List.length_map, ← hlength] at hlt
  case groups =>
    intro g hg
    obtain ⟨container, -, hgroup⟩ := List.mem_filterMap.1 hg
    obtain ⟨haround, hsome, hordered⟩ := Context.of_group?_eq_some hgroup
    refine ⟨hsome, hordered, ?_⟩
    intro i hi
    obtain ⟨node, hnode, -⟩ := (haround.mem_iff i).1 hi
    rw [hlength]
    exact (List.getElem?_eq_some_iff.1 hnode).1
  case group =>
    intro i n hn id hid
    rw [Snapshot.ofCanvas, List.getElem?_map] at hn
    obtain ⟨node, hnode, rfl⟩ := Option.map_eq_some_iff.1 hn
    obtain ⟨container, hmem, hcontainer, hin⟩ := Snapshot.exists_container_of_group? hid
    obtain ⟨g, hg⟩ := Context.exists_group?_of_encloses hnode hin
    have haround := (Context.of_group?_eq_some hg).1
    exact ⟨container, hmem, hcontainer, g, List.mem_filterMap.2 ⟨container, hmem, hg⟩, haround,
      (haround.mem_iff i).2 ⟨node, hnode, hin⟩⟩
  case live =>
    intro n hn
    exact LiveIds.mem_nodeIds_ofScene (List.mem_map.2 ⟨n, hn, rfl⟩)

end Whiteboard
