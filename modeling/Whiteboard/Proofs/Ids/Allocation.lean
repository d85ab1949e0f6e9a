import Whiteboard.Ids.Edge
import Whiteboard.Except
import Whiteboard.Proofs.Ids.Numbered
import Mathlib.Data.Finset.Card

/-!
# Handing out edge ids

An edge gets the id it wants if that is free, and else the first of its hundred numbered variants that is (`EdgeIds.Grants`).
What one request does is `EdgeIds.allocate_cases`. What all requests so far have led to is an `IsAllocation`, and each further
request that is granted keeps it one (`IsAllocation.concat`).

Main statement: the ids that are handed out are an allocation, only an edge that can have no id is refused, and none is while
there are few ids and few edges (`allocateEdgeIds_grants`). Different pairs may want the same id, since ids may hold
underscores; that is why the ids that are handed out count as taken for all edges behind.
-/

namespace Whiteboard

open Ids (renamed)

namespace EdgeIds

/-! ## One request -/

/-- What an edge gets that wants an id. -/
inductive Grants (taken : List String) (wanted : String) : String → Prop where
  | wanted (hfree : wanted ∉ taken) : Grants taken wanted wanted
  | variant (k : Nat) (htaken : wanted ∈ taken) (hlow : 1 ≤ k) (hhigh : k ≤ 100) (hfree : renamed wanted k ∉ taken)
      (hleast : ∀ j, 1 ≤ j → j < k → renamed wanted j ∈ taken) : Grants taken wanted (renamed wanted k)

/-- An edge that wants an id can have none. -/
structure IsExhausted (taken : List String) (wanted : String) : Prop where
  self : wanted ∈ taken
  variant : ∀ k, 1 ≤ k → k ≤ 100 → renamed wanted k ∈ taken

/-- The variants of an id are numbered from one. -/
theorem variants_eq (wanted : String) : variants wanted = (List.range 100).map fun k => renamed wanted (k + 1) := rfl

/-- There are a hundred variants of every id. -/
theorem length_variants (wanted : String) : (variants wanted).length = 100 := by
  rw [variants_eq, List.length_map, List.length_range]

/-- What is granted was not taken. -/
theorem Grants.notMem {taken : List String} {wanted id : String} (h : Grants taken wanted id) : id ∉ taken := by
  cases h with
  | wanted hfree => exact hfree
  | variant k _ _ _ hfree _ => exact hfree

/-- An edge that can have no id gets none. -/
theorem IsExhausted.not_grants {taken : List String} {wanted id : String} (h : IsExhausted taken wanted) :
    ¬ Grants taken wanted id := by
  intro hgrants
  cases hgrants with
  | wanted hfree => exact hfree h.self
  | variant k _ hlow hhigh hfree _ => exact hfree (h.variant k hlow hhigh)

/-- An id is exhausted where it and all of its variants are taken. -/
theorem isExhausted_variants (wanted : String) : IsExhausted (wanted :: variants wanted) wanted := by
  refine ⟨List.mem_cons_self, fun k hlow hhigh => List.mem_cons_of_mem _ ?_⟩
  obtain ⟨i, rfl⟩ := Nat.exists_eq_add_of_le' hlow
  rw [variants_eq]
  exact List.mem_map.2 ⟨i, List.mem_range.2 hhigh, rfl⟩

/-- What an edge gets depends on nothing but which ids are taken. -/
theorem Grants.congr {taken taken' : List String} (htaken : ∀ id, id ∈ taken ↔ id ∈ taken') {wanted id : String}
    (h : Grants taken wanted id) : Grants taken' wanted id := by
  cases h with
  | wanted hfree => exact .wanted fun hmem => hfree ((htaken _).2 hmem)
  | variant k hself hlow hhigh hfree hleast =>
    exact .variant k ((htaken _).1 hself) hlow hhigh (fun hmem => hfree ((htaken _).2 hmem)) fun j hj hlt =>
      (htaken _).1 (hleast j hj hlt)

/-- Whether an id is exhausted depends only on which ids are taken. -/
theorem IsExhausted.congr {taken taken' : List String} (htaken : ∀ id, id ∈ taken ↔ id ∈ taken') {wanted : String}
    (h : IsExhausted taken wanted) : IsExhausted taken' wanted :=
  ⟨(htaken _).1 h.self, fun k hlow hhigh => (htaken _).1 (h.variant k hlow hhigh)⟩

/-- Where nothing is left for an edge, more than a hundred ids are taken. -/
theorem IsExhausted.lt_card {taken : List String} {wanted : String} (h : IsExhausted taken wanted) :
    100 < taken.toFinset.card := by
  have hnodup : (wanted :: variants wanted).Nodup := by
    refine List.nodup_cons.2 ⟨?_, List.nodup_range.map fun i j hij => Nat.succ_injective (Ids.renamed_injective wanted hij)⟩
    intro hmem
    obtain ⟨k, -, hk⟩ := List.mem_map.1 hmem
    exact Ids.ne_renamed wanted (k + 1) hk.symm
  have hsub : wanted :: variants wanted ⊆ taken.dedup := by
    intro id hid
    rw [List.mem_dedup]
    rcases List.mem_cons.1 hid with rfl | hid
    · exact h.self
    · rw [variants_eq] at hid
      obtain ⟨k, hk, rfl⟩ := List.mem_map.1 hid
      have hlt := List.mem_range.1 hk
      exact h.variant (k + 1) (by omega) (by omega)
  have hlength := (hnodup.subperm hsub).length_le
  rw [List.length_cons, length_variants] at hlength
  rw [List.card_toFinset]
  omega

/-- An id is free if it is neither used nor issued. -/
theorem isFree_iff (ids : EdgeIds) (id : String) : ids.isFree id = true ↔ id ∉ ids.used ++ ids.issued := by
  simp [isFree]

/-- What is found among the wanted id and its variants is what the edge gets. -/
theorem grants_of_find? {ids : EdgeIds} {wanted id : String}
    (h : (wanted :: variants wanted).find? ids.isFree = some id) : Grants (ids.used ++ ids.issued) wanted id := by
  rw [List.find?_cons] at h
  split at h
  · rename_i hfree
    cases h
    exact .wanted ((ids.isFree_iff wanted).1 hfree)
  · rename_i htaken
    rw [variants_eq, List.find?_map] at h
    obtain ⟨k, hk, rfl⟩ := Option.map_eq_some_iff.1 h
    obtain ⟨hfree, hrange, hbefore⟩ := List.find?_range_eq_some.1 hk
    have hlt : k < 100 := List.mem_range.1 hrange
    refine .variant (k + 1) ?_ (by omega) (by omega) ((ids.isFree_iff _).1 hfree) ?_
    · by_contra hnot
      rw [(ids.isFree_iff wanted).2 hnot] at htaken
      cases htaken
    · intro j hlow hj
      obtain ⟨i, rfl⟩ := Nat.exists_eq_add_of_le' hlow
      by_contra hnot
      have hnone := hbefore i (by omega)
      rw [Function.comp_apply, (ids.isFree_iff _).2 hnot] at hnone
      cases hnone

/-- Where no candidate is free the id is exhausted. -/
theorem isExhausted_of_find? {ids : EdgeIds} {wanted : String} (h : (wanted :: variants wanted).find? ids.isFree = none) :
    IsExhausted (ids.used ++ ids.issued) wanted := by
  have htaken : ∀ id ∈ wanted :: variants wanted, id ∈ ids.used ++ ids.issued := by
    intro id hid
    by_contra hnot
    exact List.find?_eq_none.1 h id hid ((ids.isFree_iff id).2 hnot)
  refine ⟨htaken wanted List.mem_cons_self, fun k hlow hhigh => ?_⟩
  obtain ⟨i, rfl⟩ := Nat.exists_eq_add_of_le' hlow
  refine htaken _ (List.mem_cons_of_mem _ ?_)
  rw [variants_eq]
  exact List.mem_map.2 ⟨i, List.mem_range.2 hhigh, rfl⟩

/-- A request is granted, and what is given is taken from then on, or nothing is left for it. It counts either way. -/
theorem allocate_cases (ids : EdgeIds) (source target : String) :
    (∃ id, Grants (ids.used ++ ids.issued) (candidate source target (ids.asked.count (source, target) + 1)) id ∧
      ids.allocate source target = (some id, ⟨ids.used, id :: ids.issued, (source, target) :: ids.asked⟩)) ∨
    (IsExhausted (ids.used ++ ids.issued) (candidate source target (ids.asked.count (source, target) + 1)) ∧
      ids.allocate source target = (none, ⟨ids.used, ids.issued, (source, target) :: ids.asked⟩)) := by
  let asked : EdgeIds := { ids with asked := (source, target) :: ids.asked }
  let wanted := candidate source target (ids.asked.count (source, target) + 1)
  have hcount : asked.asked.count (source, target) = ids.asked.count (source, target) + 1 := List.count_cons_self
  cases hfind : (wanted :: variants wanted).find? asked.isFree with
  | some id =>
    refine Or.inl ⟨id, grants_of_find? hfind, ?_⟩
    simp only [allocate, hcount, asked, wanted] at hfind ⊢
    rw [hfind]
  | none =>
    refine Or.inr ⟨isExhausted_of_find? hfind, ?_⟩
    simp only [allocate, hcount, asked, wanted] at hfind ⊢
    rw [hfind]

end EdgeIds

open EdgeIds

/-! ## Many requests -/

/-- One id for every edge: all different, none of them used, and each what its edge is granted where the used ids and those
of the edges before are taken. The n-th edge of a pair wants the n-th id of the pair. -/
structure IsAllocation (used : List String) (pairs : List (String × String)) (ids : List String) : Prop where
  length_eq : ids.length = pairs.length
  nodup : ids.Nodup
  unused : ∀ id ∈ ids, id ∉ used
  granted : ∀ i source target, pairs[i]? = some (source, target) → ∃ id, ids[i]? = some id ∧
    Grants (used ++ ids.take i) (candidate source target ((pairs.take i).count (source, target) + 1)) id

/-- The edge is the first that can have no id. -/
def IsRefused (used : List String) (pairs : List (String × String)) (edge : UnresolvableEdge) : Prop :=
  ∃ before after ids, pairs = before ++ (edge.source, edge.target) :: after ∧ IsAllocation used before ids ∧
    IsExhausted (used ++ ids) (candidate edge.source edge.target (before.count (edge.source, edge.target) + 1))

theorem isAllocation_nil (used : List String) : IsAllocation used [] [] :=
  ⟨rfl, List.nodup_nil, by simp, by simp⟩

/-- One more request that is granted. -/
theorem IsAllocation.concat {used ids : List String} {pairs : List (String × String)} (h : IsAllocation used pairs ids)
    {source target id : String}
    (hid : Grants (used ++ ids) (candidate source target (pairs.count (source, target) + 1)) id) :
    IsAllocation used (pairs ++ [(source, target)]) (ids ++ [id]) := by
  have hfree := hid.notMem
  rw [List.mem_append, not_or] at hfree
  constructor
  case length_eq => rw [List.length_append, List.length_append, h.length_eq]; rfl
  case nodup =>
    refine List.nodup_append.2 ⟨h.nodup, List.nodup_singleton id, ?_⟩
    rintro x hx y hy rfl
    rw [List.mem_singleton.1 hy] at hx
    exact hfree.2 hx
  case unused =>
    intro x hx
    rcases List.mem_append.1 hx with hx | hx
    · exact h.unused x hx
    · rw [List.mem_singleton.1 hx]
      exact hfree.1
  case granted =>
    intro i s t hi
    have hlength := h.length_eq
    rcases Nat.lt_trichotomy i pairs.length with hlt | rfl | hgt
    · rw [List.getElem?_append_left hlt] at hi
      obtain ⟨old, hold, hgrants⟩ := h.granted i s t hi
      refine ⟨old, by rw [List.getElem?_append_left (by omega), hold], ?_⟩
      rwa [List.take_append_of_le_length (by omega), List.take_append_of_le_length (by omega)]
    · rw [List.getElem?_concat_length] at hi
      cases hi
      refine ⟨id, by rw [← hlength, List.getElem?_concat_length], ?_⟩
      rwa [← hlength, List.take_left, hlength, List.take_left]
    · rw [List.getElem?_eq_none (by simp; omega)] at hi
      cases hi

/-- All further requests, after some that have led to an allocation. The state lists the latest request first, which changes
neither what is taken nor how often a pair was asked for. -/
theorem allocateEdgeIds_go {used front : List String} {before : List (String × String)} (h : IsAllocation used before front)
    (pairs : List (String × String)) :
    (∀ ids, allocateEdgeIds.go ⟨used, front.reverse, before.reverse⟩ pairs = .ok ids →
      IsAllocation used (before ++ pairs) (front ++ ids)) ∧
    ∀ e, allocateEdgeIds.go ⟨used, front.reverse, before.reverse⟩ pairs = .error e → IsRefused used (before ++ pairs) e := by
  induction pairs generalizing before front with
  | nil =>
    refine ⟨fun ids hids => ?_, nofun⟩
    cases hids
    simpa using h
  | cons pair rest ih =>
    obtain ⟨source, target⟩ := pair
    have htaken : ∀ id, id ∈ used ++ front.reverse ↔ id ∈ used ++ front := by simp
    rw [allocateEdgeIds.go]
    rcases allocate_cases ⟨used, front.reverse, before.reverse⟩ source target with
      ⟨id, hgrants, heq⟩ | ⟨hexhausted, heq⟩
    · rw [List.count_reverse] at hgrants
      have hnext := ih (h.concat (hgrants.congr htaken))
      rw [List.reverse_concat, List.reverse_concat, List.append_assoc, List.singleton_append] at hnext
      rw [heq]
      refine ⟨fun ids hids => ?_, fun e he => hnext.2 e (error_of_map_eq_error he)⟩
      obtain ⟨others, hothers, rfl⟩ := exists_of_map_eq_ok hids
      simpa using hnext.1 others hothers
    · rw [List.count_reverse] at hexhausted
      rw [heq]
      refine ⟨nofun, fun e he => ?_⟩
      cases he
      exact ⟨before, rest, front, rfl, h, hexhausted.congr htaken⟩

/-- Where nothing is left for the first edge, it is refused. -/
theorem allocateEdgeIds_eq_error {used : List String} {source target : String}
    (h : IsExhausted used (candidate source target 1)) (rest : List (String × String)) :
    allocateEdgeIds used ((source, target) :: rest) = .error ⟨source, target⟩ := by
  rw [allocateEdgeIds, allocateEdgeIds.go]
  rcases allocate_cases ⟨used, [], []⟩ source target with ⟨id, hgrants, -⟩ | ⟨-, heq⟩
  · simp only [List.append_nil, List.count_nil] at hgrants
    exact absurd hgrants h.not_grants
  · rw [heq]

/-- An edge is refused only if there are many used ids or many edges. -/
theorem IsRefused.lt_card {used : List String} {pairs : List (String × String)} {edge : UnresolvableEdge}
    (h : IsRefused used pairs edge) : 101 < used.toFinset.card + pairs.length := by
  obtain ⟨before, after, ids, rfl, hids, hexhausted⟩ := h
  have htaken : (used ++ ids).toFinset.card ≤ used.toFinset.card + ids.length := by
    rw [List.toFinset_append]
    exact (Finset.card_union_le _ _).trans (Nat.add_le_add_left (List.toFinset_card_le ids) _)
  have hcard := hexhausted.lt_card
  have hlength := hids.length_eq
  rw [List.length_append, List.length_cons]
  omega

/-- What is handed out to the edges of a list: one id for each, all different and none of them used, the n-th edge of a pair
getting `source_target` or `source_target_n`, or if that is taken the least numbered variant of it from one to a hundred that
is free. If there is no answer, the edge that is named is the first for which all of them are taken, and with as few as a
hundred and one used ids and edges together there is one. -/
theorem allocateEdgeIds_grants (used : List String) (pairs : List (String × String)) :
    (∀ ids, allocateEdgeIds used pairs = .ok ids → IsAllocation used pairs ids) ∧
    (∀ edge, allocateEdgeIds used pairs = .error edge → IsRefused used pairs edge) ∧
    (used.toFinset.card + pairs.length ≤ 101 → ∃ ids, allocateEdgeIds used pairs = .ok ids) := by
  have hgo := allocateEdgeIds_go (isAllocation_nil used) pairs
  refine ⟨hgo.1, hgo.2, fun hfew => ?_⟩
  cases hresult : allocateEdgeIds used pairs with
  | ok ids => exact ⟨ids, rfl⟩
  | error edge =>
    have hmany := IsRefused.lt_card (hgo.2 edge hresult)
    rw [List.nil_append] at hmany
    omega

/-- Three pairs that want the same id or a variant of it, an edge for which all is taken, and one for which all but the id that
it wants is taken. -/
theorem allocateEdgeIds_grants_contested :
    let pairs := [("a", "b_2"), ("a_b", "2"), ("a", "b"), ("a", "b")]
    (allocateEdgeIds ["a_b_2_1"] pairs = .ok ["a_b_2", "a_b_2_2", "a_b", "a_b_2_3"] ∧
      IsAllocation ["a_b_2_1"] pairs ["a_b_2", "a_b_2_2", "a_b", "a_b_2_3"]) ∧
    (allocateEdgeIds ("a_b" :: variants "a_b") [("a", "b"), ("b", "a")] = .error ⟨"a", "b"⟩ ∧
      IsRefused ("a_b" :: variants "a_b") [("a", "b"), ("b", "a")] ⟨"a", "b"⟩) ∧
    (variants "a_b").toFinset.card + [("a", "b")].length ≤ 101 ∧
      ∃ ids, allocateEdgeIds (variants "a_b") [("a", "b")] = .ok ids := by
  intro pairs
  have hok : allocateEdgeIds ["a_b_2_1"] pairs = .ok ["a_b_2", "a_b_2_2", "a_b", "a_b_2_3"] := by decide +kernel
  have herror : allocateEdgeIds ("a_b" :: variants "a_b") [("a", "b"), ("b", "a")] = .error ⟨"a", "b"⟩ :=
    allocateEdgeIds_eq_error (isExhausted_variants "a_b") _
  have hfew : (variants "a_b").toFinset.card + [("a", "b")].length ≤ 101 := by
    have hcard : (variants "a_b").toFinset.card ≤ 100 := (List.toFinset_card_le _).trans_eq (length_variants _)
    rw [List.length_singleton]
    omega
  exact ⟨⟨hok, (allocateEdgeIds_grants _ _).1 _ hok⟩, ⟨herror, (allocateEdgeIds_grants _ _).2.1 _ herror⟩, hfew,
    (allocateEdgeIds_grants _ _).2.2 hfew⟩

end Whiteboard
