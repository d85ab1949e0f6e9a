import Whiteboard.Proofs.Canvas.Layout
import Mathlib.Logic.Relation
import Mathlib.Order.Bounds.Basic
import Mathlib.Data.List.Perm.Subperm

/-!
# Layers by longest paths

Main statement: where the edges between nodes form no cycle the layer of a node is the number of edges on the longest path that
ends at it, in whatever order nodes and edges come, and even with cycles no layer is numbered as high as there are nodes
(`Layout.layers_longest`).

Layers change in place, so what one link does depends on those before it in the round. Two facts carry the proof. The layer of
a node is at any time the length of some path that ends there (`Layout.IsLayering`); and layers only grow, so after `k` rounds
they count every path of up to `k` edges (`Layout.le_rounds`). Without a cycle a path has fewer edges than there are nodes
(`Skeleton.PathTo.lt_length`), which is why the bound on layers never stops a node and the rounds suffice.
-/

namespace Whiteboard

namespace Skeleton

variable {s s' : Skeleton} {a b id : String} {k : Nat}

/-- An edge leads from a node to another one. -/
def Leads (s : Skeleton) (a b : String) : Prop :=
  a ≠ b ∧ a ∈ s.nodes.map (·.id) ∧ b ∈ s.nodes.map (·.id) ∧ ∃ e ∈ s.edges, e.source = a ∧ e.target = b

/-- A path of so many edges ends at a node. -/
inductive PathTo (s : Skeleton) : Nat → String → Prop
  | start {id : String} : id ∈ s.nodes.map (·.id) → PathTo s 0 id
  | step {k : Nat} {a b : String} : PathTo s k a → s.Leads a b → PathTo s (k + 1) b

/-- No path leads from a node to itself. -/
def IsAcyclic (s : Skeleton) : Prop := ∀ id, ¬ Relation.TransGen s.Leads id id

/-- The order of nodes and edges does not matter. -/
theorem Leads.of_perm (hnodes : s.nodes.Perm s'.nodes) (hedges : s.edges.Perm s'.edges) (h : s.Leads a b) : s'.Leads a b := by
  obtain ⟨hne, ha, hb, e, he, hends⟩ := h
  exact ⟨hne, (hnodes.map _).mem_iff.1 ha, (hnodes.map _).mem_iff.1 hb, e, hedges.mem_iff.1 he, hends⟩

/-- The order of nodes and edges makes no difference to the paths. -/
theorem PathTo.of_perm (hnodes : s.nodes.Perm s'.nodes) (hedges : s.edges.Perm s'.edges) (h : s.PathTo k id) :
    s'.PathTo k id := by
  induction h with
  | start hid => exact .start ((hnodes.map _).mem_iff.1 hid)
  | step _ hleads ih => exact .step ih (hleads.of_perm hnodes hedges)

/-- The nodes of a path, the last one first: each is reached from every one behind it. -/
theorem PathTo.exists_nodes (h : s.PathTo k id) :
    ∃ before : List String, before.length = k ∧ (id :: before).Pairwise (fun b a => Relation.TransGen s.Leads a b) ∧
      ∀ x ∈ id :: before, x ∈ s.nodes.map (·.id) := by
  induction h with
  | start hid => exact ⟨[], rfl, List.pairwise_singleton _ _, by simpa using hid⟩
  | @step k a b _ hleads ih =>
    obtain ⟨before, hlength, hreached, hnodes⟩ := ih
    have hlast : ∀ x ∈ a :: before, Relation.TransGen s.Leads x b := by
      intro x hx
      rcases List.mem_cons.1 hx with rfl | hx
      · exact .single hleads
      · exact ((List.pairwise_cons.1 hreached).1 x hx).tail hleads
    exact ⟨a :: before, by rw [List.length_cons, hlength], List.pairwise_cons.2 ⟨hlast, hreached⟩,
      List.forall_mem_cons.2 ⟨hleads.2.2.1, hnodes⟩⟩

/-- Without a cycle no node is on a path twice. -/
theorem PathTo.lt_length (hs : s.IsAcyclic) (h : s.PathTo k id) : k < s.nodes.length := by
  obtain ⟨before, rfl, hreached, hnodes⟩ := h.exists_nodes
  have hnodup : (id :: before).Nodup := by
    refine hreached.imp ?_
    rintro b a hreach rfl
    exact hs b hreach
  have hlength := (hnodup.subperm hnodes).length_le
  rwa [List.length_cons, List.length_map] at hlength

/-- Where every edge between nodes leads to a higher number there is no cycle. -/
theorem isAcyclic_of_number (number : String → Nat) (h : ∀ e ∈ s.edges, e.source ≠ e.target → e.source ∈ s.nodes.map (·.id) →
    e.target ∈ s.nodes.map (·.id) → number e.source < number e.target) : s.IsAcyclic := by
  have hleads : ∀ a b, s.Leads a b → number a < number b := by
    rintro a b ⟨hne, ha, hb, e, he, rfl, rfl⟩
    exact h e he hne ha hb
  intro id hcycle
  have hless : Relation.TransGen (fun a b : String => number a < number b) id id := Relation.TransGen.mono hleads _ _ hcycle
  rw [Relation.transGen_eq_self] at hless
  exact lt_irrefl _ hless

end Skeleton

namespace Layout

variable {s : Skeleton}

section

variable {layers : Array Nat}

/-- Links are the edges that lead from one node to another, by the places of these. -/
theorem mem_links (hids : (s.nodes.map (·.id)).Nodup) {i j : Nat} :
    (i, j) ∈ links s ↔ ∃ a b, s.nodes[i]? = some a ∧ s.nodes[j]? = some b ∧ s.Leads a.id b.id := by
  have hplace : ∀ {id : String} {i : Nat}, lastIndex? (·.id == id) s.nodes = some i ↔
      ∃ a, s.nodes[i]? = some a ∧ a.id = id := lastIndex?_eq_some_iff hids
  rw [links, List.mem_filterMap]
  constructor
  · rintro ⟨e, he, hlink⟩
    split at hlink
    · rename_i i' j' hi hj
      split at hlink
      · cases hlink
      · rename_i hne
        cases hlink
        obtain ⟨a, ha, hsource⟩ := hplace.1 hi
        obtain ⟨b, hb, htarget⟩ := hplace.1 hj
        refine ⟨a, b, ha, hb, fun heq => hne ?_, List.mem_map_of_mem (List.mem_of_getElem? ha),
          List.mem_map_of_mem (List.mem_of_getElem? hb), e, he, hsource.symm, htarget.symm⟩
        rw [← hsource, heq, htarget, hj] at hi
        exact (Option.some.inj hi).symm
    · cases hlink
  · rintro ⟨a, b, ha, hb, hne, -, -, e, he, hsource, htarget⟩
    have hi := hplace.2 ⟨a, ha, hsource.symm⟩
    have hj := hplace.2 ⟨b, hb, htarget.symm⟩
    have hij : i ≠ j := by
      rintro rfl
      rw [ha, Option.some.injEq] at hb
      exact hne (congrArg _ hb)
    exact ⟨e, he, by simp only [hi, hj, if_neg hij]⟩

/-! ## One link -/

/-- One layer is set and all others stay. -/
theorem getD_setIfInBounds {j : Nat} (hj : j < layers.size) (l v : Nat) :
    (layers.setIfInBounds j l).getD v 0 = if v = j then l else layers.getD v 0 := by
  rw [Array.getD_eq_getD_getElem?, Array.getElem?_setIfInBounds, Array.getD_eq_getD_getElem?]
  by_cases h : v = j
  · rw [if_pos h, if_pos h.symm, if_pos hj, Option.getD_some]
  · rw [if_neg h, if_neg (Ne.symm h)]

/-- A link moves its target right behind its source, unless it lies there already or the layers are used up. -/
theorem relaxLink_cases (n : Nat) (layers : Array Nat) (i j : Nat) :
    (layers.getD j 0 < layers.getD i 0 + 1 ∧ layers.getD i 0 + 1 < n ∧
      relaxLink n layers (i, j) = layers.setIfInBounds j (layers.getD i 0 + 1)) ∨
    ((layers.getD i 0 < layers.getD j 0 ∨ n ≤ layers.getD i 0 + 1) ∧ relaxLink n layers (i, j) = layers) := by
  by_cases h : layers.getD j 0 < layers.getD i 0 + 1 ∧ layers.getD i 0 + 1 < n
  · exact .inl ⟨h.1, h.2, if_pos (by simpa using h)⟩
  · exact .inr ⟨by omega, if_neg (by simpa using h)⟩

/-- No layer sinks. -/
theorem le_relaxLink {n i j : Nat} (hj : j < layers.size) (v : Nat) :
    layers.getD v 0 ≤ (relaxLink n layers (i, j)).getD v 0 := by
  obtain ⟨hless, -, heq⟩ | ⟨-, heq⟩ := relaxLink_cases n layers i j
  · rw [heq, getD_setIfInBounds hj]
    by_cases hv : v = j
    · rw [if_pos hv, hv]
      omega
    · rw [if_neg hv]
  · rw [heq]

/-- Layers of the nodes of a skeleton: there are fewer layers than nodes, and the layer of a node is the length of a path that
ends at it. -/
structure IsLayering (s : Skeleton) (layers : Array Nat) : Prop where
  size : layers.size = s.nodes.length
  lt : ∀ l ∈ layers, l < s.nodes.length
  path : ∀ i a, s.nodes[i]? = some a → s.PathTo (layers.getD i 0) a.id

/-- All nodes in the first layer: no path is overrated. -/
theorem isLayering_start (s : Skeleton) : IsLayering s (Array.replicate s.nodes.length 0) := by
  refine ⟨Array.size_replicate, fun l hl => ?_, fun i a ha => ?_⟩
  · obtain ⟨hne, rfl⟩ := Array.mem_replicate.1 hl
    omega
  · have hi := (List.getElem?_eq_some_iff.1 ha).1
    simpa [hi] using Skeleton.PathTo.start (List.mem_map_of_mem (List.mem_of_getElem? ha))

/-- The ends of a link have their places among the layers. -/
theorem IsLayering.target_lt (h : IsLayering s layers) (hids : (s.nodes.map (·.id)).Nodup) {i j : Nat}
    (hlink : (i, j) ∈ links s) : j < layers.size := by
  obtain ⟨a, b, -, hb, -⟩ := (mem_links hids).1 hlink
  rw [h.size]
  exact (List.getElem?_eq_some_iff.1 hb).1

/-- Following a link keeps every layer within the length of a path. -/
theorem IsLayering.relaxLink (h : IsLayering s layers) (hids : (s.nodes.map (·.id)).Nodup) {link : Nat × Nat}
    (hlink : link ∈ links s) : IsLayering s (relaxLink s.nodes.length layers link) := by
  obtain ⟨i, j⟩ := link
  have hj := h.target_lt hids hlink
  obtain ⟨a, b, ha, hb, hleads⟩ := (mem_links hids).1 hlink
  obtain ⟨-, hnext, heq⟩ | ⟨-, heq⟩ := relaxLink_cases s.nodes.length layers i j
  · rw [heq]
    refine ⟨by rw [Array.size_setIfInBounds, h.size], fun l hl => ?_, fun v c hc => ?_⟩
    · rcases Array.mem_or_eq_of_mem_setIfInBounds hl with hl | rfl
      · exact h.lt l hl
      · exact hnext
    · rw [getD_setIfInBounds hj]
      by_cases hv : v = j
      · rw [hv, hb, Option.some.injEq] at hc
        rw [if_pos hv, ← hc]
        exact (h.path i a ha).step hleads
      · rw [if_neg hv]
        exact h.path v c hc
  · rwa [heq]

/-- Without a cycle the bound on layers does not count: the target of a link comes to lie behind its source. -/
theorem IsLayering.lt_relaxLink (h : IsLayering s layers) (hids : (s.nodes.map (·.id)).Nodup) (hs : s.IsAcyclic) {i j : Nat}
    (hlink : (i, j) ∈ links s) : layers.getD i 0 < (Layout.relaxLink s.nodes.length layers (i, j)).getD j 0 := by
  obtain ⟨a, b, ha, hb, hleads⟩ := (mem_links hids).1 hlink
  have hlt := ((h.path i a ha).step hleads).lt_length hs
  obtain ⟨-, -, heq⟩ | ⟨hstay, heq⟩ := relaxLink_cases s.nodes.length layers i j
  · rw [heq, getD_setIfInBounds (h.target_lt hids hlink), if_pos rfl]
    omega
  · rw [heq]
    omega

/-! ## Rounds -/

/-- What some links of a round do: no layer shrinks. -/
theorem IsLayering.foldl (h : IsLayering s layers) (hids : (s.nodes.map (·.id)).Nodup) {part : List (Nat × Nat)}
    (hpart : part ⊆ links s) : IsLayering s (part.foldl (Layout.relaxLink s.nodes.length) layers) ∧
      ∀ v, layers.getD v 0 ≤ (part.foldl (Layout.relaxLink s.nodes.length) layers).getD v 0 := by
  induction part generalizing layers with
  | nil => exact ⟨h, fun _ => le_refl _⟩
  | cons link part ih =>
    obtain ⟨hlink, hpart⟩ := List.cons_subset.1 hpart
    obtain ⟨hrest, hle⟩ := ih (h.relaxLink hids hlink) hpart
    exact ⟨hrest, fun v => (le_relaxLink (h.target_lt hids hlink) v).trans (hle v)⟩

/-- Following all links keeps every layer within the length of a path. -/
theorem IsLayering.relax (h : IsLayering s layers) (hids : (s.nodes.map (·.id)).Nodup) :
    IsLayering s (relax s.nodes.length (links s) layers) :=
  (h.foldl hids (List.Subset.refl _)).1

/-- After a round the target of a link lies behind the layer that its source had before. -/
theorem IsLayering.lt_relax (h : IsLayering s layers) (hids : (s.nodes.map (·.id)).Nodup) (hs : s.IsAcyclic) {i j : Nat}
    (hlink : (i, j) ∈ links s) : layers.getD i 0 < (Layout.relax s.nodes.length (links s) layers).getD j 0 := by
  obtain ⟨before, after, heq⟩ := List.append_of_mem hlink
  have hbefore : before ⊆ links s := by
    rw [heq]
    exact List.subset_append_left _ _
  have hafter : after ⊆ links s := by
    rw [heq]
    exact fun x hx => List.mem_append_right _ (List.mem_cons_of_mem _ hx)
  obtain ⟨h', hle⟩ := h.foldl hids hbefore
  have hlt := h'.lt_relaxLink hids hs hlink
  have hle' := ((h'.relaxLink hids hlink).foldl hids hafter).2 j
  rw [Layout.relax, heq, List.foldl_append, List.foldl_cons]
  exact lt_of_le_of_lt (hle i) (lt_of_lt_of_le hlt hle')

end

/-- Some rounds, one after the other, from the start. -/
def rounds (s : Skeleton) (k : Nat) : Array Nat :=
  (relax s.nodes.length (links s))^[k] (Array.replicate s.nodes.length 0)

theorem rounds_succ (s : Skeleton) (k : Nat) : rounds s (k + 1) = relax s.nodes.length (links s) (rounds s k) :=
  Function.iterate_succ_apply' _ _ _

/-- After any number of rounds every layer is the length of a path. -/
theorem isLayering_rounds (hids : (s.nodes.map (·.id)).Nodup) (k : Nat) : IsLayering s (rounds s k) := by
  induction k with
  | zero => exact isLayering_start s
  | succ k ih =>
    rw [rounds_succ]
    exact ih.relax hids

/-- After `k` rounds every path of up to `k` edges counts. -/
theorem le_rounds (hids : (s.nodes.map (·.id)).Nodup) (hs : s.IsAcyclic) {k l : Nat} {i : Nat} {a : Skeleton.Node}
    (ha : s.nodes[i]? = some a) (hpath : s.PathTo l a.id) (hl : l ≤ k) : l ≤ (rounds s k).getD i 0 := by
  induction k generalizing l i a with
  | zero => omega
  | succ k ih =>
    generalize hid : a.id = id at hpath
    cases hpath with
    | start => exact Nat.zero_le _
    | @step l b _ hpath hleads =>
      obtain ⟨c, hc, rfl⟩ := List.mem_map.1 hleads.2.1
      obtain ⟨j, hj⟩ := List.getElem?_of_mem hc
      have hlink : (j, i) ∈ links s := (mem_links hids).2 ⟨c, a, hj, ha, hid ▸ hleads⟩
      have hle := ih hj hpath (Nat.le_of_succ_le_succ hl)
      have hlt := (isLayering_rounds hids k).lt_relax hids hs hlink
      rw [rounds_succ]
      omega

/-- A round that changes nothing is followed by none that would. -/
theorem settle_eq_iterate (n : Nat) (links : List (Nat × Nat)) (k : Nat) (layers : Array Nat) :
    settle n links k layers = (relax n links)^[k] layers := by
  induction k generalizing layers with
  | zero => rfl
  | succ k ih =>
    rw [settle]
    split
    · rename_i hfixed
      exact (Function.iterate_fixed hfixed (k + 1)).symm
    · rw [ih, Function.iterate_succ_apply]

/-- Stopping early comes to the same as doing all rounds. -/
theorem layers_eq_rounds (s : Skeleton) : layers s = rounds s s.nodes.length := settle_eq_iterate _ _ _ _

/-- Every layer is the length of a path. -/
theorem isLayering_layers (hids : (s.nodes.map (·.id)).Nodup) : IsLayering s (layers s) := by
  rw [layers_eq_rounds]
  exact isLayering_rounds hids _

/-- The layer of a node is the number of edges on the longest path to it. -/
theorem isGreatest_layers (hids : (s.nodes.map (·.id)).Nodup) (hs : s.IsAcyclic) {i : Nat} {a : Skeleton.Node}
    (ha : s.nodes[i]? = some a) : IsGreatest {k | s.PathTo k a.id} ((layers s).getD i 0) := by
  rw [layers_eq_rounds]
  exact ⟨(isLayering_rounds hids _).path i a ha, fun k hk => le_rounds hids hs ha hk (hk.lt_length hs).le⟩

/-- Layers by longest paths. Every node of a skeleton with distinct ids has a layer, and the layers are numbered below the
number of nodes; stopping after a round that changes nothing makes no difference to running all rounds. If the edges between
distinct nodes form no cycle the layer of a node is the number of edges on the longest path that ends at it. So every such edge
leads to a later layer, and other orders of nodes and edges give the same layers. -/
theorem layers_longest (s : Skeleton) (hids : (s.nodes.map (·.id)).Nodup) :
    (layers s).size = s.nodes.length ∧
    (∀ l ∈ layers s, l < s.nodes.length) ∧
    layers s = (relax s.nodes.length (links s))^[s.nodes.length] (Array.replicate s.nodes.length 0) ∧
    (s.IsAcyclic →
      (∀ (i : Nat) (a : Skeleton.Node), s.nodes[i]? = some a →
        ∃ l, (layers s)[i]? = some l ∧ IsGreatest {k | s.PathTo k a.id} l) ∧
      (∀ (i j : Nat) (a b : Skeleton.Node) (l m : Nat), s.nodes[i]? = some a → s.nodes[j]? = some b → s.Leads a.id b.id →
        (layers s)[i]? = some l → (layers s)[j]? = some m → l < m) ∧
      ∀ s' : Skeleton, s.nodes.Perm s'.nodes → s.edges.Perm s'.edges →
        ∀ (i j : Nat) (a : Skeleton.Node), s.nodes[i]? = some a → s'.nodes[j]? = some a → (layers s')[j]? = (layers s)[i]?) := by
  have hlongest : ∀ {s : Skeleton}, (s.nodes.map (·.id)).Nodup → s.IsAcyclic → ∀ {i : Nat} {a : Skeleton.Node},
      s.nodes[i]? = some a → ∃ l, (layers s)[i]? = some l ∧ IsGreatest {k | s.PathTo k a.id} l := by
    intro s hids hs i a ha
    have hlt : i < (layers s).size := by
      rw [(isLayering_layers hids).size]
      exact (List.getElem?_eq_some_iff.1 ha).1
    have hgreatest := isGreatest_layers hids hs ha
    rw [Array.getD_eq_getD_getElem?, Array.getElem?_eq_getElem hlt, Option.getD_some] at hgreatest
    exact ⟨_, Array.getElem?_eq_getElem hlt, hgreatest⟩
  have hlayers := isLayering_layers hids
  refine ⟨hlayers.size, hlayers.lt, layers_eq_rounds s, fun hs => ⟨fun i a ha => hlongest hids hs ha, ?_, ?_⟩⟩
  · intro i j a b l m ha hb hleads hl hm
    obtain ⟨l', hl', hpath, -⟩ := hlongest hids hs ha
    obtain ⟨m', hm', -, hle⟩ := hlongest hids hs hb
    rw [hl, Option.some.injEq] at hl'
    rw [hm, Option.some.injEq] at hm'
    subst hl' hm'
    exact hle (Skeleton.PathTo.step hpath hleads)
  · intro s' hnodes hedges i j a ha ha'
    have hpaths : {k | s'.PathTo k a.id} = {k | s.PathTo k a.id} :=
      Set.ext fun k => ⟨fun h => h.of_perm hnodes.symm hedges.symm, fun h => h.of_perm hnodes hedges⟩
    have hleads : ∀ a b, s'.Leads a b → s.Leads a b := fun _ _ h => h.of_perm hnodes.symm hedges.symm
    have hs' : s'.IsAcyclic := fun id hcycle => hs id (Relation.TransGen.mono hleads _ _ hcycle)
    obtain ⟨l, hl, hgreatest⟩ := hlongest hids hs ha
    obtain ⟨l', hl', hgreatest'⟩ := hlongest ((hnodes.map _).nodup_iff.1 hids) hs' ha'
    rw [hpaths] at hgreatest'
    rw [hl, hl', hgreatest'.unique hgreatest]

/-- A chain of four nodes whose edges come last first, so that a round moves one node only, a short cut, a loop, and an edge to
what is not there. -/
def backwards : Skeleton :=
  let edge (a b : String) : Skeleton.Edge := ⟨a ++ "_" ++ b, a, b, none, false⟩
  { direction := .topDown
    nodes := ["d", "b", "a", "c"].map fun id => ⟨id, .rectangle, none⟩
    edges := [edge "c" "d", edge "b" "c", edge "a" "b", edge "a" "d", edge "b" "b", edge "d" "e"]
    groups := [] }

/-- Every node gets the length of its longest path, whatever the order of the edges. -/
theorem layers_longest_backwards :
    (backwards.nodes.map (·.id)).Nodup ∧ backwards.IsAcyclic ∧ layers backwards = #[3, 1, 0, 2] ∧
    IsGreatest {k | backwards.PathTo k "d"} 3 ∧ layers { backwards with edges := backwards.edges.reverse } = #[3, 1, 0, 2] := by
  have hids : (backwards.nodes.map (·.id)).Nodup := by decide
  have hs : backwards.IsAcyclic :=
    Skeleton.isAcyclic_of_number (fun id => ["a", "b", "c", "d"].idxOf id) (by decide)
  obtain ⟨-, -, -, hlongest⟩ := layers_longest backwards hids
  obtain ⟨hgreatest, -, -⟩ := hlongest hs
  obtain ⟨l, hl, hd⟩ := hgreatest 0 ⟨"d", .rectangle, none⟩ rfl
  have hthree : (layers backwards)[0]? = some 3 := by decide
  rw [hthree, Option.some.injEq] at hl
  exact ⟨hids, hs, by decide, hl ▸ hd, by decide⟩

end Layout

end Whiteboard
