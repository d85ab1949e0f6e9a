import Whiteboard.Ids.Check
import Mathlib.Data.List.Nodup
import Mathlib.Data.List.Perm.Subperm
import Mathlib.Logic.Function.Basic

/-!
# Numbered names

A name with a number behind it gives the number back, so the numbered variants of a name are all different
(`renamed_injective`). That is why a search through them ends: of more variants than there are taken names one is free
(`exists_notMem_of_length_lt`), and the search finds the first such one (`exists_find?_range`).
-/

namespace Whiteboard.Ids

/-- Numbers that are written alike are equal. -/
theorem eq_of_toString_eq {a b : Nat} (h : toString a = toString b) : a = b := by
  have hdigits : Nat.toDigits 10 a = Nat.toDigits 10 b := by
    have h := congrArg String.toList h
    simpa only [Nat.toString_eq_repr, Nat.toList_repr] using h
  simpa using congrArg (fun ds => Nat.ofDigitChars 10 ds 0) hdigits

/-- No two numbered variants of a name are equal. -/
theorem renamed_injective (name : String) : Function.Injective (renamed name) := by
  intro a b h
  have h := congrArg String.toList h
  simp only [renamed, String.toList_append] at h
  exact eq_of_toString_eq (String.toList_inj.1 (List.append_cancel_left h))

/-- A numbered variant is longer than the name. -/
theorem length_lt_renamed (name : String) (n : Nat) : name.length < (renamed name n).length := by
  have hone : "_".length = 1 := rfl
  simp only [renamed, String.length_append, hone]
  omega

/-- A numbered variant is another name. -/
theorem ne_renamed (name : String) (n : Nat) : name ≠ renamed name n :=
  fun h => Nat.ne_of_lt (length_lt_renamed name n) (congrArg String.length h)

/-- Of more names than are taken one is free. -/
theorem exists_notMem_of_length_lt {names taken : List String} (hnames : names.Nodup) (h : taken.length < names.length) :
    ∃ name ∈ names, name ∉ taken := by
  by_contra hall
  have hsub : names ⊆ taken := by
    intro name hname
    by_contra hfree
    exact hall ⟨name, hname, hfree⟩
  have := (hnames.subperm hsub).length_le
  omega

/-- A search through names that are all different, one more than there are taken names, ends with the first that is free. -/
theorem exists_find?_range {name : Nat → String} (hname : Function.Injective name) (taken : List String) :
    ∃ k, ((List.range (taken.length + 1)).map name).find? (!taken.contains ·) = some (name k) ∧ name k ∉ taken ∧
      ∀ j < k, name j ∈ taken := by
  cases hfound : ((List.range (taken.length + 1)).map name).find? (!taken.contains ·) with
  | none =>
    obtain ⟨free, hfree, hnot⟩ : ∃ free ∈ (List.range (taken.length + 1)).map name, free ∉ taken :=
      exists_notMem_of_length_lt (List.nodup_range.map hname) (by simp)
    have hnone := List.find?_eq_none.1 hfound free hfree
    simp [hnot] at hnone
  | some found =>
    rw [List.find?_map] at hfound
    obtain ⟨k, hk, rfl⟩ := Option.map_eq_some_iff.1 hfound
    obtain ⟨hfree, -, hbefore⟩ := List.find?_range_eq_some.1 hk
    exact ⟨k, rfl, by simpa using hfree, fun j hj => by simpa using hbefore j hj⟩

end Whiteboard.Ids
