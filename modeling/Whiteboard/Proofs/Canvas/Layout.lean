import Whiteboard.Canvas.Layout
import Mathlib.Data.List.Nodup
import Mathlib.Data.List.Perm.Basic

/-!
# What a layout places

Every node of a skeleton is placed exactly once (`Layout.placed_perm`), whatever the sizes and the edges are, and the
containers are the listed groups that have members, in order (`Layout.map_fst_containers`).
-/

namespace Whiteboard.Layout

/-! ## Places in a list -/

/-- The last place in a list where `p` holds is one where it holds. -/
theorem getElem?_of_lastIndex? {p : α → Bool} {xs : List α} {k : Nat} (h : lastIndex? p xs = some k) :
    ∃ x, xs[k]? = some x ∧ p x = true := by
  obtain ⟨j, hj, rfl⟩ := Option.map_eq_some_iff.1 h
  obtain ⟨hlt, hp, -⟩ := List.findIdx?_eq_some_iff_getElem.1 hj
  rw [List.length_reverse] at hlt
  rw [List.getElem_reverse] at hp
  exact ⟨_, List.getElem?_eq_getElem (by omega), hp⟩

/-- There is such a place if there is an item where `p` holds. -/
theorem exists_lastIndex? {p : α → Bool} {xs : List α} {x : α} (hx : x ∈ xs) (hp : p x = true) :
    ∃ k, lastIndex? p xs = some k := by
  cases h : xs.reverse.findIdx? p with
  | none =>
    have hnone := List.findIdx?_eq_none_iff.1 h x (List.mem_reverse.2 hx)
    rw [hp] at hnone
    cases hnone
  | some j => exact ⟨xs.length - 1 - j, by rw [lastIndex?, h]; rfl⟩

/-- There is none for a key that no item has. -/
theorem lastIndex?_eq_none {key : α → String} {xs : List α} {k : String} (h : k ∉ xs.map key) :
    lastIndex? (key · == k) xs = none := by
  rw [Option.eq_none_iff_forall_ne_some]
  intro i hi
  obtain ⟨x, hx, hk⟩ := getElem?_of_lastIndex? hi
  exact h (List.mem_map.2 ⟨x, List.mem_of_getElem? hx, beq_iff_eq.1 hk⟩)

/-- Where keys are distinct the last place of a key is the only one. -/
theorem lastIndex?_eq_some_iff {key : α → String} {xs : List α} (h : (xs.map key).Nodup) {k : String} {i : Nat} :
    lastIndex? (key · == k) xs = some i ↔ ∃ x, xs[i]? = some x ∧ key x = k := by
  constructor
  · intro hi
    obtain ⟨x, hx, hk⟩ := getElem?_of_lastIndex? hi
    exact ⟨x, hx, beq_iff_eq.1 hk⟩
  · rintro ⟨x, hx, hk⟩
    obtain ⟨j, hj⟩ := exists_lastIndex? (p := (key · == k)) (List.mem_of_getElem? hx) (beq_iff_eq.2 hk)
    obtain ⟨y, hy, hky⟩ := getElem?_of_lastIndex? hj
    have hlt : j < (xs.map key).length := by
      rw [List.length_map]
      exact (List.getElem?_eq_some_iff.1 hy).1
    have hji : j = i := by
      refine (List.getElem?_inj hlt h).1 ?_
      rw [List.getElem?_map, List.getElem?_map, hx, hy, Option.map_some, Option.map_some, hk, beq_iff_eq.1 hky]
    rw [hj, hji]

/-- Where keys are distinct an item stands at the place of its key. -/
theorem idxOf_map_of_getElem? [BEq κ] [LawfulBEq κ] {key : α → κ} {xs : List α} (h : (xs.map key).Nodup) {x : α} {i : Nat}
    (hx : xs[i]? = some x) : (xs.map key).idxOf (key x) = i := by
  have hkey : (xs.map key)[i]? = some (key x) := by rw [List.getElem?_map, hx, Option.map_some]
  obtain ⟨hlt, hkey⟩ := List.getElem?_eq_some_iff.1 hkey
  rw [← hkey]
  exact h.idxOf_getElem i hlt

/-- What is made of places is made of keys, where these are distinct. -/
theorem map_snd_zipIdx [BEq κ] [LawfulBEq κ] {key : α → κ} {xs : List α} (h : (xs.map key).Nodup) (f : Nat → β) :
    xs.zipIdx.map (fun x => f x.2) = (xs.map key).map fun k => f ((xs.map key).idxOf k) := by
  conv_rhs => rw [← List.zipIdx_map_fst 0 xs, List.map_map, List.map_map]
  refine List.map_congr_left fun x hx => ?_
  rw [List.zipIdx_map_fst]
  exact congrArg f (idxOf_map_of_getElem? h (List.mem_zipIdx_iff_getElem?.1 hx)).symm

/-- A value stands at a place, as the one that has so many alike before it. -/
theorem getElem?_idxsOf [BEq α] [LawfulBEq α] {x : α} {xs : List α} {k i : Nat} :
    (xs.idxsOf x)[k]? = some i ↔ xs[i]? = some x ∧ (xs.take i).count x = k := by
  induction xs generalizing k i with
  | nil => simp
  | cons y ys ih =>
    have hshift : ∀ j k : Nat, (ys.idxsOf x 1)[k]? = some (j + 1) ↔ (ys.idxsOf x)[k]? = some j := by
      intro j k
      rw [List.idxsOf_start, List.getElem?_map]
      simp
    have hpos : ∀ k : Nat, (ys.idxsOf x 1)[k]? ≠ some 0 := by
      intro k h
      have := List.ge_of_mem_idxsOf 0 (List.mem_of_getElem? h)
      omega
    rw [List.idxsOf_cons]
    by_cases h : y = x
    · cases k with
      | zero => cases i <;> simp [h]
      | succ k => cases i <;> simp [h, hshift, hpos, ih]
    · cases i <;> simp [h, hshift, hpos, ih]

/-! ## Nodes and containers -/

variable (c : Layout) (s : Skeleton)

/-- The last layer that has a node in it. -/
def lastLayer (s : Skeleton) : Nat := ((entries s).map (·.layer)).foldl max 0

/-- What is placed comes of the entries one by one; the slot counts those of its layer before. -/
theorem getElem?_placeEntries (direction : Direction) (maxLayer : Nat) (before : List Nat) (es : List Entry) (i : Nat) :
    (c.placeEntries direction maxLayer before es)[i]? = es[i]?.map fun e =>
      let slot := before.count e.layer + ((es.take i).map (·.layer)).count e.layer
      let corner := c.place direction e.layer slot maxLayer
      ⟨e.node, e.layer, slot, { x := corner.x, y := corner.y, width := c.nodeWidth, height := c.nodeHeight }⟩ := by
  induction es generalizing before i with
  | nil => simp [placeEntries]
  | cons e es ih =>
    rw [placeEntries]
    cases i with
    | zero => simp
    | succ i =>
      rw [List.getElem?_cons_succ, ih, List.getElem?_cons_succ, List.take_succ_cons, List.map_cons]
      congr 1
      funext e'
      have hslot : (e.layer :: before).count e'.layer + ((es.take i).map (·.layer)).count e'.layer =
          before.count e'.layer + (e.layer :: (es.take i).map (·.layer)).count e'.layer := by
        rw [List.count_cons, List.count_cons]
        omega
      rw [hslot]

/-- The placed node of an entry. -/
theorem getElem?_placed (i : Nat) : (c.placed s)[i]? = (entries s)[i]?.map fun e =>
    let slot := (((entries s).take i).map (·.layer)).count e.layer
    let corner := c.place s.direction e.layer slot (lastLayer s)
    ⟨e.node, e.layer, slot, { x := corner.x, y := corner.y, width := c.nodeWidth, height := c.nodeHeight }⟩ := by
  rw [placed, getElem?_placeEntries]
  simp only [List.count_nil, Nat.zero_add]
  rfl

/-- Entries are placed as they come. -/
theorem map_node_placed : (c.placed s).map (·.node) = (entries s).map (·.node) := by
  refine List.ext_getElem? fun i => ?_
  rw [List.getElem?_map, getElem?_placed, Option.map_map, List.getElem?_map]
  rfl

/-- Nodes that come in order already stay as they are. -/
theorem entries_of_pairwise
    (h : (s.nodes.mapIdx fun i node => (⟨node, (layers s).getD i 0, groupRank s node⟩ : Entry)).Pairwise
      fun a b => a.before b = true) :
    entries s = s.nodes.mapIdx fun i node => ⟨node, (layers s).getD i 0, groupRank s node⟩ :=
  List.mergeSort_of_pairwise h

/-- Every node is placed exactly once. -/
theorem placed_perm : ((c.placed s).map (·.node)).Perm s.nodes := by
  have hnodes : (s.nodes.mapIdx fun i node => (⟨node, (layers s).getD i 0, groupRank s node⟩ : Entry)).map (·.node) =
      s.nodes := by
    rw [List.mapIdx_eq_zipIdx_map, List.map_map]
    exact List.zipIdx_map_fst 0 s.nodes
  have hsorted : ((entries s).map (·.node)).Perm _ := (List.mergeSort_perm _ _).map _
  rw [hnodes] at hsorted
  rw [map_node_placed]
  exact hsorted

/-- The ids of the placed nodes are those of the nodes. -/
theorem map_id_placed_perm : ((c.placed s).map (·.node.id)).Perm (s.nodes.map (·.id)) := by
  have h := (c.placed_perm s).map (·.id)
  rwa [List.map_map] at h

variable {c s}

/-- A placed node lies where its layer and its slot say. -/
theorem transform_of_mem_placed {p : PlacedNode} (hp : p ∈ c.placed s) :
    p.transform = {
      x := (c.place s.direction p.layer p.slot (lastLayer s)).x
      y := (c.place s.direction p.layer p.slot (lastLayer s)).y
      width := c.nodeWidth
      height := c.nodeHeight } := by
  obtain ⟨i, hi⟩ := List.getElem?_of_mem hp
  rw [getElem?_placed] at hi
  obtain ⟨e, -, rfl⟩ := Option.map_eq_some_iff.1 hi
  rfl

variable (c s)

/-- A placed node has the size that the layout gives to nodes. -/
theorem size_placed {p : PlacedNode} (hp : p ∈ c.placed s) :
    p.transform.width = c.nodeWidth ∧ p.transform.height = c.nodeHeight := by
  rw [transform_of_mem_placed hp]
  exact ⟨rfl, rfl⟩

/-- The listed groups that have members. -/
def filledGroups (s : Skeleton) : List String := s.groups.filter fun g => s.nodes.any (·.group? == some g)

/-- The containers stand for the listed groups that have members, in order. -/
theorem map_fst_containers : (c.containers s).map (·.1) = filledGroups s := by
  rw [containers, List.map_filterMap, filledGroups, ← List.filterMap_eq_filter]
  refine List.filterMap_congr fun g _ => ?_
  have hany : s.nodes.any (·.group? == some g) = (c.placed s).any (·.node.group? == some g) := by
    rw [← (c.placed_perm s).any_eq, List.any_map]
    rfl
  rw [Option.guard_apply, hany]
  cases hmembers : (c.placed s).filter (·.node.group? == some g) with
  | nil =>
    have hnone : (c.placed s).any (·.node.group? == some g) = false :=
      List.any_eq_false.2 (List.filter_eq_nil_iff.1 hmembers)
    rw [hnone]
    rfl
  | cons p ps =>
    obtain ⟨hp, hgroup⟩ := List.mem_filter.1 (hmembers ▸ List.mem_cons_self)
    rw [List.any_eq_true.2 ⟨p, hp, hgroup⟩]
    rfl

/-- Boxes stand for listed groups, in the order of the list. -/
theorem containers_sublist : ((c.containers s).map (·.1)).Sublist s.groups := by
  rw [map_fst_containers]
  exact List.filter_sublist

end Whiteboard.Layout
