/-!
# Finding and replacing within a text

Occurrences are taken from the left and do not overlap.
-/

namespace Whiteboard.Text

/-- The texts before and after the first occurrence of `pat`. -/
def breakOn? (pat : List Char) : List Char → Option (List Char × List Char)
  | [] => if pat.isEmpty then some ([], []) else none
  | c :: cs =>
    if pat.isPrefixOf (c :: cs) then some ([], (c :: cs).drop pat.length)
    else (breakOn? pat cs).map fun (before, after) => (c :: before, after)

/-- Whether `pat` occurs in the text. -/
def contains (pat s : List Char) : Bool := (breakOn? pat s).isSome

/-- Every occurrence of the non-empty text `pat`, from the left, gives way to `sub`. -/
def replaceAll (pat sub : List Char) : List Char → List Char
  | [] => []
  | c :: cs =>
    if pat.isPrefixOf (c :: cs) then sub ++ replaceAll pat sub (cs.drop (pat.length - 1))
    else c :: replaceAll pat sub cs
termination_by s => s.length
decreasing_by all_goals simp only [List.length_drop, List.length_cons]; omega

@[simp] theorem replaceAll_nil (pat sub : List Char) : replaceAll pat sub [] = [] := by rw [replaceAll]

/-- What comes first is replaced, or the first character is kept. -/
theorem replaceAll_cons (pat sub : List Char) (c : Char) (cs : List Char) :
    replaceAll pat sub (c :: cs) =
      if pat.isPrefixOf (c :: cs) then sub ++ replaceAll pat sub (cs.drop (pat.length - 1))
      else c :: replaceAll pat sub cs := by
  rw [replaceAll]

end Whiteboard.Text
