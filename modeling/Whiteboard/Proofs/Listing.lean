import Mathlib.Data.Finset.Lattice.Basic
import Mathlib.Data.Finset.SDiff
import Mathlib.Data.List.Nodup

/-!
# What one list has and another lacks

The items of a list that are not in another one, each once and in the order in which they come up first (`IsSurplus`). What a
list lacks put in, and what it has too much taken out, makes the set of its items that of the other one (`toFinset_patch`).
-/

namespace Whiteboard

/-- The list holds those items of `xs` that are not in `ys`, each once, in the order of their first places in `xs`. -/
structure IsSurplus [BEq α] (out xs ys : List α) : Prop where
  mem_iff : ∀ x, x ∈ out ↔ x ∈ xs ∧ x ∉ ys
  nodup : out.Nodup
  ordered : out.Pairwise fun x y => xs.idxOf x < xs.idxOf y

section

variable [BEq α] [LawfulBEq α] {xs ys : List α}

/-- The items of a list without repetitions come in the order of their places. -/
theorem pairwise_idxOf (h : xs.Nodup) : xs.Pairwise fun x y => xs.idxOf x < xs.idxOf y := by
  rw [List.pairwise_iff_getElem]
  intro i j hi hj hij
  rwa [List.Nodup.idxOf_getElem h, List.Nodup.idxOf_getElem h]

/-- Where repetitions are left out, the items come in the order of their first places, also if some have been left out before: a
last item counts only if it has not been there before, and then its place is behind all others. -/
theorem pairwise_idxOf_eraseDups (p : α → Bool) (xs : List α) :
    (xs.filter p).eraseDups.Pairwise fun x y => xs.idxOf x < xs.idxOf y := by
  induction xs using List.reverseRecOn with
  | nil => exact List.Pairwise.nil
  | append_singleton xs b ih =>
    have hmem : ∀ x ∈ (xs.filter p).eraseDups, x ∈ xs :=
      fun x hx => List.mem_of_mem_filter (List.mem_eraseDups.1 hx)
    have hkept : (xs.filter p).eraseDups.Pairwise fun x y => (xs ++ [b]).idxOf x < (xs ++ [b]).idxOf y := by
      refine ih.imp_of_mem ?_
      intro x y hx hy hlt
      rwa [List.idxOf_append_of_mem (hmem x hx), List.idxOf_append_of_mem (hmem y hy)]
    by_cases hnew : p b = true ∧ b ∉ xs
    · have hlast : ((xs ++ [b]).filter p).eraseDups = (xs.filter p).eraseDups ++ [b] := by
        rw [List.filter_append, List.eraseDups_append]
        simp [hnew, List.removeAll, List.eraseDups_cons]
      rw [hlast, List.pairwise_append]
      refine ⟨hkept, List.pairwise_singleton _ _, ?_⟩
      intro x hx y hy
      obtain rfl := List.mem_singleton.1 hy
      rw [List.idxOf_append_of_mem (hmem x hx), List.idxOf_append_of_notMem hnew.2]
      exact Nat.lt_add_right _ (List.idxOf_lt_length_of_mem (hmem x hx))
    · have hlast : ((xs ++ [b]).filter p).eraseDups = (xs.filter p).eraseDups := by
        rw [List.filter_append, List.eraseDups_append]
        by_cases hb : p b = true
        · have hold : b ∈ xs := by
            by_contra hb'
            exact hnew ⟨hb, hb'⟩
          simp [hb, hold, List.removeAll]
        · simp [hb, List.removeAll]
      rw [hlast]
      exact hkept

/-- Leaving out the items of the other list, and then repetitions, gives the surplus. -/
theorem isSurplus_eraseDups (xs ys : List α) : IsSurplus (xs.filter (!ys.contains ·)).eraseDups xs ys where
  mem_iff x := by simp [List.mem_eraseDups]
  nodup := by
    refine (pairwise_idxOf_eraseDups _ xs).imp ?_
    rintro x y hlt rfl
    exact absurd hlt (Nat.lt_irrefl _)
  ordered := pairwise_idxOf_eraseDups _ xs

/-- Where there are no repetitions it is enough to leave out the items of the other list. -/
theorem isSurplus_filter (h : xs.Nodup) (ys : List α) : IsSurplus (xs.filter (!ys.contains ·)) xs ys where
  mem_iff x := by simp
  nodup := h.filter _
  ordered := (pairwise_idxOf h).filter _

end

section

variable [DecidableEq α] {old new added removed : List α}

/-- What is too much taken out, and what is lacking put in, makes the one set of items the other. -/
theorem toFinset_patch (hadded : ∀ x, x ∈ added ↔ x ∈ new ∧ x ∉ old) (hremoved : ∀ x, x ∈ removed ↔ x ∈ old ∧ x ∉ new) :
    (old.toFinset \ removed.toFinset) ∪ added.toFinset = new.toFinset := by
  ext x
  simp only [Finset.mem_union, Finset.mem_sdiff, List.mem_toFinset, hadded, hremoved]
  tauto

/-- Nothing is lacking and nothing too much exactly if the items are the same. -/
theorem eq_nil_iff_toFinset_eq (hadded : ∀ x, x ∈ added ↔ x ∈ new ∧ x ∉ old)
    (hremoved : ∀ x, x ∈ removed ↔ x ∈ old ∧ x ∉ new) :
    added = [] ∧ removed = [] ↔ old.toFinset = new.toFinset := by
  rw [List.eq_nil_iff_forall_not_mem, List.eq_nil_iff_forall_not_mem, Finset.ext_iff]
  simp only [List.mem_toFinset, hadded, hremoved]
  constructor
  · rintro ⟨hnone, hnone'⟩ x
    have h := hnone x
    have h' := hnone' x
    tauto
  · intro h
    refine ⟨?_, ?_⟩
    · rintro x ⟨hnew, hold⟩
      exact hold ((h x).2 hnew)
    · rintro x ⟨hold, hnew⟩
      exact hnew ((h x).1 hold)

end

end Whiteboard
