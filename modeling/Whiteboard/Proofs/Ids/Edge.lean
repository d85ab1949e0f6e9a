import Whiteboard.Ids.Edge
import Whiteboard.Except

/-!
# Edge ids

What is known of the ids that edges get: there is one for every edge, if all can have one, and each holds an underscore,
the one between the two ends.
-/

namespace Whiteboard

namespace EdgeIds

/-- Every candidate for the id of an edge has an underscore. -/
theorem underscore_mem_candidate (source target : String) (n : Nat) : '_' ∈ (candidate source target n).toList := by
  rw [candidate]
  split <;> simp

/-- An id that is given holds an underscore. -/
theorem underscore_mem_allocate {ids : EdgeIds} {source target id : String}
    (h : (ids.allocate source target).1 = some id) : '_' ∈ id.toList := by
  unfold allocate at h
  simp only at h
  split at h
  · rename_i found hfound
    cases h
    have hcandidate := underscore_mem_candidate source target
    rcases List.mem_cons.1 (List.mem_of_find?_eq_some hfound) with rfl | hmem
    · exact hcandidate _
    · obtain ⟨k, -, rfl⟩ := List.mem_map.1 hmem
      simp [hcandidate]
  · cases h

end EdgeIds

/-- Every edge gets an id, if all can have one, and every id holds an underscore. -/
theorem allocateEdgeIds_spec {used ids : List String} {pairs : List (String × String)}
    (h : allocateEdgeIds used pairs = .ok ids) : ids.length = pairs.length ∧ ∀ id ∈ ids, '_' ∈ id.toList := by
  have hgo : ∀ (pairs : List (String × String)) (state : EdgeIds) (ids : List String),
      allocateEdgeIds.go state pairs = .ok ids → ids.length = pairs.length ∧ ∀ id ∈ ids, '_' ∈ id.toList := by
    intro pairs
    induction pairs with
    | nil =>
      intro state ids h
      cases h
      exact ⟨rfl, by simp⟩
    | cons pair pairs ih =>
      obtain ⟨source, target⟩ := pair
      intro state ids h
      rw [allocateEdgeIds.go] at h
      split at h
      · cases h
      · rename_i id state' hallocate
        obtain ⟨rest, hrest, rfl⟩ := exists_of_map_eq_ok h
        obtain ⟨hlength, hrest⟩ := ih _ _ hrest
        have hid : '_' ∈ id.toList := EdgeIds.underscore_mem_allocate (congrArg Prod.fst hallocate)
        exact ⟨congrArg (· + 1) hlength, List.forall_mem_cons.2 ⟨hid, hrest⟩⟩
  exact hgo _ _ _ h

end Whiteboard
