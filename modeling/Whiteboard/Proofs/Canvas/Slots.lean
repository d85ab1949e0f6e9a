import Whiteboard.Proofs.Canvas.Conversion
import Whiteboard.Proofs.Canvas.Layering

/-!
# A cell for each node

Main statement: the nodes of a layer have the slots from zero on, in the order of their groups and, within a group, in the order
of the diagram; so no two nodes of a skeleton are put into the same cell (`Layout.convert_slots`).

A slot counts the nodes of the layer that are placed before. So the slots of a layer are the positions in the list of its nodes,
taken out of the list of all nodes in the order in which they are placed, and everything follows from how that list is sorted
(`Layout.pairwise_order`).
-/

namespace Whiteboard

namespace Layout

/-! ## Sorting in place of order -/

/-- Sorting leaves those that compare equal to an item as they were. -/
theorem filter_mergeSort_tied (le : α → α → Bool) (htrans : ∀ a b c, le a b = true → le b c = true → le a c = true)
    (htotal : ∀ a b, (le a b || le b a) = true) (xs : List α) (a : α) :
    (xs.mergeSort le).filter (fun x => le a x && le x a) = xs.filter fun x => le a x && le x a := by
  have hties : (xs.filter fun x => le a x && le x a).Pairwise fun x y => le x y = true := by
    refine List.pairwise_of_forall_mem_list fun x hx y hy => ?_
    have hx := (Bool.and_eq_true_iff.1 (List.mem_filter.1 hx).2).2
    have hy := (Bool.and_eq_true_iff.1 (List.mem_filter.1 hy).2).1
    exact htrans _ _ _ hx hy
  have hsub := (List.sublist_mergeSort htrans htotal hties List.filter_sublist).filter fun x => le a x && le x a
  rw [List.filter_filter, List.filter_congr fun x _ => Bool.and_self (le a x && le x a)] at hsub
  exact (hsub.eq_of_length ((List.mergeSort_perm xs le).filter _).length_eq.symm).symm

/-- A stable sort: what comes out later of two that compare equal was later before. -/
theorem pairwise_mergeSort_stable (le : α → α → Bool) {before : α → α → Prop}
    (htrans : ∀ a b c, le a b = true → le b c = true → le a c = true) (htotal : ∀ a b, (le a b || le b a) = true) {xs : List α}
    (hxs : xs.Pairwise before) : (xs.mergeSort le).Pairwise fun a b => le a b = true ∧ (le b a = true → before a b) := by
  rw [List.pairwise_iff_forall_sublist]
  intro a b hab
  have hle : le a b = true := List.pairwise_iff_forall_sublist.1 (List.pairwise_mergeSort htrans htotal xs) hab
  refine ⟨hle, fun hba => ?_⟩
  have hself : le a a = true := by simpa using htotal a a
  have hpair := hab.filter fun x => le a x && le x a
  rw [filter_mergeSort_tied le htrans htotal] at hpair
  have htied : [a, b].filter (fun x => le a x && le x a) = [a, b] := by simp [hle, hba, hself]
  rw [htied] at hpair
  exact List.pairwise_iff_forall_sublist.1 hxs (hpair.trans List.filter_sublist)

/-- Entries come by their layers and, in one layer, by their ranks. -/
theorem Entry.before_iff {a b : Entry} : a.before b = true ↔ a.layer < b.layer ∨ a.layer = b.layer ∧ a.rank ≤ b.rank := by
  simp only [before, Bool.or_eq_true, Bool.and_eq_true, decide_eq_true_eq, beq_iff_eq]

/-- Coming before is transitive. -/
theorem Entry.before_trans (a b c : Entry) (hab : a.before b = true) (hbc : b.before c = true) : a.before c = true := by
  rw [before_iff] at *
  omega

/-- Of two entries one comes before the other. -/
theorem Entry.before_total (a b : Entry) : (a.before b || b.before a) = true := by
  rw [Bool.or_eq_true, before_iff, before_iff]
  omega

/-! ## The order in which nodes are placed -/

/-- The layer of the node at a place. -/
def layerAt (s : Skeleton) (i : Nat) : Nat := (layers s).getD i 0

/-- What decides about the place of a node. -/
def entryOf (s : Skeleton) (x : Skeleton.Node × Nat) : Entry := ⟨x.1, layerAt s x.2, groupRank s x.1⟩

/-- The nodes, each with its place in the skeleton, in the order in which they are placed. -/
def order (s : Skeleton) : List (Skeleton.Node × Nat) :=
  s.nodes.zipIdx.mergeSort fun x y => (entryOf s x).before (entryOf s y)

/-- The entries are those of the nodes, in the order in which these are placed. -/
theorem entries_eq (s : Skeleton) : entries s = (order s).map (entryOf s) := by
  rw [entries, order, List.map_mergeSort (s := Entry.before) fun _ _ _ _ => rfl, List.mapIdx_eq_zipIdx_map]
  rfl

/-- Every node is placed once. -/
theorem mem_order {s : Skeleton} {a : Skeleton.Node} {i : Nat} : (a, i) ∈ order s ↔ s.nodes[i]? = some a := by
  rw [order, (List.mergeSort_perm _ _).mem_iff, List.mem_zipIdx_iff_getElem?]

/-- Of two nodes the one in the earlier layer is placed first, in one layer that of the earlier group, and in one group the one
that is first in the skeleton. -/
theorem pairwise_order (s : Skeleton) : (order s).Pairwise fun x y => layerAt s x.2 < layerAt s y.2 ∨
    layerAt s x.2 = layerAt s y.2 ∧ (groupRank s x.1 < groupRank s y.1 ∨ groupRank s x.1 = groupRank s y.1 ∧ x.2 < y.2) := by
  have hplaces : s.nodes.zipIdx.Pairwise fun x y => x.2 < y.2 := by
    rw [← List.pairwise_map, List.zipIdx_map_snd]
    exact List.pairwise_lt_range' 1
  have hsorted := pairwise_mergeSort_stable (fun x y => (entryOf s x).before (entryOf s y))
    (fun _ _ _ => Entry.before_trans _ _ _) (fun _ _ => Entry.before_total _ _) hplaces
  refine hsorted.imp ?_
  rintro x y ⟨hle, htie⟩
  simp only [Entry.before_iff, entryOf] at hle htie
  omega

/-- The turn of a node, the number of those that are placed before it. -/
def turn (s : Skeleton) (i : Nat) : Nat := ((order s).map (·.2)).idxOf i

section

variable {s : Skeleton} {a b : Skeleton.Node} {i j k l q : Nat}

/-- The turn of a node is its place in the order. -/
theorem turn_eq (h : (order s)[q]? = some (a, i)) : turn s i = q := by
  have hperm : ((order s).map (·.2)).Perm (List.range' 0 s.nodes.length) := by
    rw [← List.zipIdx_map_snd]
    exact (List.mergeSort_perm _ _).map _
  exact idxOf_map_of_getElem? (hperm.nodup_iff.2 List.nodup_range') h

/-- At its turn a node is placed. -/
theorem getElem?_turn (ha : s.nodes[i]? = some a) : (order s)[turn s i]? = some (a, i) := by
  obtain ⟨q, hq⟩ := List.getElem?_of_mem (mem_order.2 ha)
  rwa [turn_eq hq]

/-- No two nodes have one turn. -/
theorem eq_of_turn_eq (ha : s.nodes[i]? = some a) (hb : s.nodes[j]? = some b) (h : turn s i = turn s j) : i = j := by
  have hsame := getElem?_turn ha
  rw [h, getElem?_turn hb, Option.some.injEq, Prod.mk.injEq] at hsame
  exact hsame.2.symm

/-- Within a layer turns go by groups and then by places. -/
theorem turn_lt_iff (ha : s.nodes[i]? = some a) (hb : s.nodes[j]? = some b) (hl : layerAt s i = layerAt s j) :
    turn s i < turn s j ↔ groupRank s a < groupRank s b ∨ groupRank s a = groupRank s b ∧ i < j := by
  have hfirst : ∀ {i j a b}, s.nodes[i]? = some a → s.nodes[j]? = some b → layerAt s i = layerAt s j → turn s i < turn s j →
      groupRank s a < groupRank s b ∨ groupRank s a = groupRank s b ∧ i < j := by
    intro i j a b ha hb hl hlt
    obtain ⟨hi, ha⟩ := List.getElem?_eq_some_iff.1 (getElem?_turn ha)
    obtain ⟨hj, hb⟩ := List.getElem?_eq_some_iff.1 (getElem?_turn hb)
    have hpair := List.pairwise_iff_getElem.1 (pairwise_order s) _ _ hi hj hlt
    rw [ha, hb] at hpair
    exact hpair.elim (fun h => absurd hl h.ne) And.right
  refine ⟨hfirst ha hb hl, fun hbefore => ?_⟩
  rcases lt_trichotomy (turn s i) (turn s j) with hlt | heq | hgt
  · exact hlt
  · obtain rfl := eq_of_turn_eq ha hb heq
    rw [ha, Option.some.injEq] at hb
    subst hb
    omega
  · have := hfirst hb ha hl.symm hgt
    omega

/-! ## Slots -/

/-- The layers of the nodes, turn by turn. -/
def layerTurns (s : Skeleton) : List Nat := (entries s).map (·.layer)

/-- The layer that is served at a turn is that of the node placed then. -/
theorem getElem?_layerTurns : (layerTurns s)[q]? = some l ↔ ∃ a i, (order s)[q]? = some (a, i) ∧ layerAt s i = l := by
  rw [layerTurns, entries_eq, List.map_map, List.getElem?_map, Option.map_eq_some_iff]
  constructor
  · rintro ⟨⟨a, i⟩, hq, hl⟩
    exact ⟨a, i, hq, hl⟩
  · rintro ⟨a, i, hq, hl⟩
    exact ⟨(a, i), hq, hl⟩

/-- The layers are served as often as nodes lie in them. -/
theorem layerTurns_perm (hids : (s.nodes.map (·.id)).Nodup) : (layerTurns s).Perm (layers s).toList := by
  have hlayers : s.nodes.zipIdx.map (fun x => layerAt s x.2) = (layers s).toList := by
    have hsize := (isLayering_layers hids).size
    refine List.ext_getElem (by simp [hsize]) fun i hi hi' => ?_
    have hlt : i < (layers s).size := by simpa using hi'
    simp [layerAt, hlt]
  rw [← hlayers, layerTurns, entries_eq, List.map_map]
  exact (List.mergeSort_perm _ _).map _

/-- The slot of a node, the number of those of its layer that are placed before it. -/
def slotOf (s : Skeleton) (i : Nat) : Nat := ((layerTurns s).take (turn s i)).count (layerAt s i)

/-- A slot is a place among the turns of a layer. -/
theorem getElem?_idxsOf_slotOf (ha : s.nodes[i]? = some a) :
    ((layerTurns s).idxsOf (layerAt s i))[slotOf s i]? = some (turn s i) :=
  getElem?_idxsOf.2 ⟨getElem?_layerTurns.2 ⟨a, i, getElem?_turn ha, rfl⟩, rfl⟩

/-- The slots of a layer are those from zero on. -/
theorem exists_slotOf_iff (hids : (s.nodes.map (·.id)).Nodup) :
    (∃ i < s.nodes.length, layerAt s i = l ∧ slotOf s i = k) ↔ k < (layers s).toList.count l := by
  rw [← (layerTurns_perm hids).count_eq, ← List.length_idxsOf (s := 0)]
  constructor
  · rintro ⟨i, hi, rfl, rfl⟩
    exact (List.getElem?_eq_some_iff.1 (getElem?_idxsOf_slotOf (List.getElem?_eq_getElem hi))).1
  · intro hk
    obtain ⟨hturn, hcount⟩ := getElem?_idxsOf.1 (List.getElem?_eq_getElem hk)
    obtain ⟨a, i, hq, rfl⟩ := getElem?_layerTurns.1 hturn
    refine ⟨i, (List.getElem?_eq_some_iff.1 (mem_order.1 (List.mem_of_getElem? hq))).1, rfl, ?_⟩
    rw [slotOf, turn_eq hq]
    exact hcount

/-- Within a layer slots go by turns. -/
theorem slotOf_lt_iff (ha : s.nodes[i]? = some a) (hb : s.nodes[j]? = some b) (hl : layerAt s i = layerAt s j) :
    slotOf s i < slotOf s j ↔ turn s i < turn s j := by
  have hsorted : ((layerTurns s).idxsOf (layerAt s j)).Pairwise (· < ·) := List.pairwise_idxsOf
  have hturns := List.pairwise_iff_getElem.1 hsorted
  have hi := getElem?_idxsOf_slotOf ha
  rw [hl] at hi
  obtain ⟨hi, hi'⟩ := List.getElem?_eq_some_iff.1 hi
  obtain ⟨hj, hj'⟩ := List.getElem?_eq_some_iff.1 (getElem?_idxsOf_slotOf hb)
  rw [← hi', ← hj']
  refine ⟨hturns _ _ hi hj, fun h => lt_of_not_ge fun hle => ?_⟩
  rcases hle.lt_or_eq with hlt | heq
  · exact absurd (hturns _ _ hj hi hlt) h.not_gt
  · exact h.ne (by simp only [heq])

end

/-- The place of a node among the groups: first those in no listed group, then group by group as these are listed. -/
def groupPlace (s : Skeleton) (a : Skeleton.Node) : Nat :=
  match a.group? with
  | none => 0
  | some g => if g ∈ s.groups then s.groups.idxOf g + 1 else 0

/-- The rank of a group is its place in the list of groups. -/
theorem groupRank_eq_groupPlace {s : Skeleton} (hgroups : s.groups.Nodup) (a : Skeleton.Node) :
    groupRank s a = groupPlace s a := by
  rw [groupRank, groupPlace]
  cases a.group? with
  | none => rfl
  | some g =>
    have hnodup : (s.groups.map id).Nodup := by rwa [List.map_id]
    by_cases hg : g ∈ s.groups
    · have hplace : lastIndex? (· == g) s.groups = some (s.groups.idxOf g) :=
        (lastIndex?_eq_some_iff hnodup).2 ⟨g, List.getElem?_idxOf hg, rfl⟩
      simp [hg, hplace]
    · have hnone : g ∉ s.groups.map id := by rwa [List.map_id]
      have hplace : lastIndex? (· == g) s.groups = none := lastIndex?_eq_none hnone
      simp [hg, hplace]

/-- What slots are there for: they tell the nodes of a layer apart, are numbered from zero without a gap, and go by groups and,
within a group, by the order of the skeleton. Nodes are given by their places in it. -/
structure IsSlotting (s : Skeleton) (slot : Nat → Nat) : Prop where
  injective : ∀ i < s.nodes.length, ∀ j < s.nodes.length, layerAt s i = layerAt s j → slot i = slot j → i = j
  range : ∀ l k, (∃ i < s.nodes.length, layerAt s i = l ∧ slot i = k) ↔ k < (layers s).toList.count l
  order : ∀ i j a b, s.nodes[i]? = some a → s.nodes[j]? = some b → layerAt s i = layerAt s j →
    (slot i < slot j ↔ groupPlace s a < groupPlace s b ∨ groupPlace s a = groupPlace s b ∧ i < j)

/-- The slots that the layout assigns are counted from zero in every layer. -/
theorem isSlotting_slotOf {s : Skeleton} (hids : (s.nodes.map (·.id)).Nodup) (hgroups : s.groups.Nodup) :
    IsSlotting s (slotOf s) where
  injective := by
    intro i hi j hj hl hslot
    have hturn := getElem?_idxsOf_slotOf (List.getElem?_eq_getElem hi)
    rw [hl, hslot, getElem?_idxsOf_slotOf (List.getElem?_eq_getElem hj), Option.some.injEq] at hturn
    exact eq_of_turn_eq (List.getElem?_eq_getElem hi) (List.getElem?_eq_getElem hj) hturn.symm
  range := fun _ _ => exists_slotOf_iff hids
  order := by
    intro i j a b ha hb hl
    rw [slotOf_lt_iff ha hb hl, turn_lt_iff ha hb hl, groupRank_eq_groupPlace hgroups, groupRank_eq_groupPlace hgroups]

/-! ## Shapes in their cells -/

/-- The last layer is the greatest of all. -/
theorem lastLayer_eq_max {s : Skeleton} (hids : (s.nodes.map (·.id)).Nodup) :
    lastLayer s = (layers s).toList.max?.getD 0 := by
  have hperm := (layerTurns_perm hids).foldl_eq (f := max) 0
  rw [List.foldl_max (l := (layers s).toList), Nat.zero_max] at hperm
  exact hperm

/-- The placed node of a turn. -/
theorem getElem?_placed_turn (c : Layout) {s : Skeleton} {a : Skeleton.Node} {i : Nat} (ha : s.nodes[i]? = some a) :
    let corner := c.place s.direction (layerAt s i) (slotOf s i) (lastLayer s)
    (c.placed s)[turn s i]? = some
      ⟨a, layerAt s i, slotOf s i, { x := corner.x, y := corner.y, width := c.nodeWidth, height := c.nodeHeight }⟩ := by
  have hentry : (entries s)[turn s i]? = some ⟨a, layerAt s i, groupRank s a⟩ := by
    rw [entries_eq, List.getElem?_map, getElem?_turn ha]
    rfl
  rw [getElem?_placed, hentry, Option.map_some, List.map_take]
  rfl

/-- A placed node becomes a shape, and the text behind it says which node it is. -/
theorem exists_shape (c : Layout) (fresh : Nat → String) {s : Skeleton} {p : PlacedNode} (hp : p ∈ c.placed s) :
    ∃ shape text, [shape, text] <:+: c.convert fresh s ∧ shape.kind = Convert.kindOf p.node.shape ∧
      shape.groupIds = p.node.group?.toList ∧ shape.transform = p.transform ∧
      text.container? = some shape.id ∧ text.text? = some p.node.id := by
  obtain ⟨q, hq⟩ := List.getElem?_of_mem hp
  let f := Convert.nodeFigure fresh (c.arrows s) (c.firstShape s + 2 * q) q p
  have hf : f ∈ c.figures s fresh := (c.mem_figures_iff s fresh).2 (.inr (.inl ⟨q, p, hq, rfl⟩))
  obtain ⟨before, after, hfigures⟩ := List.append_of_mem hf
  refine ⟨f.main, Convert.labelOf (fresh (c.firstShape s + 2 * q + 1)) p.node.id f.main.id p.transform, ?_, rfl, rfl, rfl, rfl, rfl⟩
  rw [convert_eq_flatMap, hfigures, List.flatMap_append, List.flatMap_cons, ← List.append_assoc]
  exact List.infix_append _ _ _

/-- No two nodes share a cell. The nodes of a skeleton whose nodes and groups are distinct have slots that tell those of a layer
apart, are numbered from zero without a gap and go by groups and then by the order of the nodes; and the shape of each node, the
one with its id for a text, stands in the cell of its layer and its slot. No layer lies behind the last one, from which a
reversed direction counts. -/
theorem convert_slots (c : Layout) (fresh : Nat → String) (s : Skeleton) (hids : (s.nodes.map (·.id)).Nodup)
    (hgroups : s.groups.Nodup) :
    let last := (layers s).toList.max?.getD 0
    (∃ slot, IsSlotting s slot ∧ ∀ i a, s.nodes[i]? = some a →
      ∃ shape text, [shape, text] <:+: c.convert fresh s ∧ shape.kind = Convert.kindOf a.shape ∧
        shape.groupIds = a.group?.toList ∧ text.container? = some shape.id ∧ text.text? = some a.id ∧
        let corner := c.place s.direction (layerAt s i) (slot i) last
        shape.transform = { x := corner.x, y := corner.y, width := c.nodeWidth, height := c.nodeHeight }) ∧
    ∀ i < s.nodes.length, layerAt s i ≤ last := by
  intro last
  refine ⟨⟨slotOf s, isSlotting_slotOf hids hgroups, fun i a ha => ?_⟩, fun i hi => ?_⟩
  · have hp := List.mem_of_getElem? (getElem?_placed_turn c ha)
    obtain ⟨shape, text, hinfix, hkind, hgroup, htransform, hcontainer, htext⟩ := exists_shape c fresh hp
    rw [lastLayer_eq_max hids] at htransform
    exact ⟨shape, text, hinfix, hkind, hgroup, hcontainer, htext, htransform⟩
  · have hsize : i < (layers s).size := by
      rw [(isLayering_layers hids).size]
      exact hi
    refine List.le_max?_getD_of_mem (Array.mem_toList_iff.2 ?_)
    rw [layerAt, Array.getD_eq_getD_getElem?, Array.getElem?_eq_getElem hsize, Option.getD_some]
    exact Array.getElem_mem hsize

/-- Four nodes side by side, one of them in no group, one in a group that is not listed, and the others in the listed groups the
wrong way round; and a fifth one above them, since layers go up. -/
def crowded : Skeleton :=
  { direction := .bottomUp
    nodes := [⟨"a", .circle, some "g2"⟩, ⟨"b", .rectangle, none⟩, ⟨"c", .rectangle, some "g1"⟩, ⟨"d", .decision, some "elsewhere"⟩,
      ⟨"e", .rectangle, some "g1"⟩]
    edges := [⟨"a_e", "a", "e", none, false⟩, ⟨"d_e", "d", "e", none, true⟩]
    groups := ["g1", "g2"] }

/-- The four nodes side by side get the slots from zero to three, by their groups. -/
theorem convert_slots_crowded :
    (crowded.nodes.map (·.id)).Nodup ∧ crowded.groups.Nodup ∧
    ∃ slot, IsSlotting crowded slot ∧ [1, 3, 2, 0, 4].map slot = [0, 1, 2, 3, 0] ∧
      ∃ shape text, [shape, text] <:+: ({} : Layout).convert numberedId crowded ∧ text.container? = some shape.id ∧
        text.text? = some "a" ∧ shape.transform.x = (({} : Layout).place .bottomUp 0 3 1).x ∧
        shape.transform.y = (({} : Layout).place .bottomUp 0 3 1).y := by
  have hids : (crowded.nodes.map (·.id)).Nodup := by decide
  have hgroups : crowded.groups.Nodup := by decide
  have hlayers : layers crowded = #[0, 0, 0, 0, 1] := by decide
  obtain ⟨⟨slot, hslot, hshapes⟩, -⟩ := convert_slots {} numberedId crowded hids hgroups
  obtain ⟨shape, text, hinfix, -, -, hcontainer, htext, htransform⟩ := hshapes 0 _ rfl
  have hlast := (hslot.range 1 (slot 4)).1 ⟨4, by decide, by decide, rfl⟩
  have hfirst := (hslot.range 0 (slot 0)).1 ⟨0, by decide, by decide, rfl⟩
  have hbd := (hslot.order 1 3 _ _ rfl rfl (by decide)).2 (by decide)
  have hdc := (hslot.order 3 2 _ _ rfl rfl (by decide)).2 (by decide)
  have hca := (hslot.order 2 0 _ _ rfl rfl (by decide)).2 (by decide)
  rw [hlayers] at hlast hfirst htransform
  have hcount : (#[0, 0, 0, 0, 1] : Array Nat).toList.count 1 = 1 ∧ (#[0, 0, 0, 0, 1] : Array Nat).toList.count 0 = 4 := by decide
  have hzero : slot 0 = 3 := by omega
  refine ⟨hids, hgroups, slot, hslot, ?_, shape, text, hinfix, hcontainer, htext, ?_⟩
  · simp only [List.map_cons, List.map_nil, List.cons.injEq, and_true]
    omega
  · rw [htransform, hzero]
    exact ⟨rfl, rfl⟩

end Layout

end Whiteboard
