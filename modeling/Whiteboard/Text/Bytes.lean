import Whiteboard.Text.Search

/-!
# Texts by bytes

A place in a text can be given as the number of bytes before it. A text can be cut at a number of bytes only where one of its
characters begins or the text ends.
-/

namespace Whiteboard.Text

/-- The number of bytes that a text takes up. -/
def size : List Char → Nat
  | [] => 0
  | c :: cs => c.utf8Size + size cs

/-- The text before a number of bytes and the text behind it; none if no character begins there and the text does not end
there. -/
def cut? : List Char → Nat → Option (List Char × List Char)
  | s, 0 => some ([], s)
  | [], _ + 1 => none
  | c :: cs, n + 1 =>
    if c.utf8Size ≤ n + 1 then (cut? cs (n + 1 - c.utf8Size)).map fun (before, behind) => (c :: before, behind) else none

/-- The number of bytes before the first character with a property. -/
def placeOf? (p : Char → Bool) (s : List Char) : Option Nat :=
  if s.any p then some (size (s.takeWhile fun c => !p c)) else none

/-- The number of bytes before the first occurrence of a text. -/
def placeOfText? (pat s : List Char) : Option Nat := (breakOn? pat s).map fun (before, _) => size before

@[simp] theorem size_nil : size [] = 0 := rfl

@[simp] theorem size_cons (c : Char) (cs : List Char) : size (c :: cs) = c.utf8Size + size cs := rfl

@[simp] theorem size_append (s t : List Char) : size (s ++ t) = size s + size t := by
  induction s with
  | nil => rw [List.nil_append, size_nil, Nat.zero_add]
  | cons c cs ih => rw [List.cons_append, size_cons, size_cons, ih, Nat.add_assoc]

/-- A text without bytes is empty. -/
theorem size_eq_zero_iff {s : List Char} : size s = 0 ↔ s = [] := by
  cases s with
  | nil => simp
  | cons c cs =>
    have hpos := c.utf8Size_pos
    simp only [size_cons, reduceCtorEq, iff_false]
    omega

/-- What is left behind a run takes up no more bytes than the whole. -/
theorem size_dropWhile_le (p : Char → Bool) (s : List Char) : size (s.dropWhile p) ≤ size s := by
  have hsplit := congrArg size (List.takeWhile_append_dropWhile (p := p) (l := s))
  rw [size_append] at hsplit
  omega

/-- A text that is cut is put together by its two parts, and the first one takes up the number of bytes. -/
theorem append_of_cut? {s before behind : List Char} {n : Nat} (h : cut? s n = some (before, behind)) :
    s = before ++ behind ∧ size before = n := by
  induction s generalizing n before with
  | nil =>
    cases n with
    | zero =>
      cases h
      exact ⟨rfl, rfl⟩
    | succ n => cases h
  | cons c cs ih =>
    cases n with
    | zero =>
      cases h
      exact ⟨rfl, rfl⟩
    | succ n =>
      rw [cut?] at h
      split at h
      · rename_i hle
        obtain ⟨⟨before', behind'⟩, hcut, heq⟩ := Option.map_eq_some_iff.mp h
        cases heq
        obtain ⟨rfl, hsize⟩ := ih hcut
        exact ⟨rfl, by rw [size_cons, hsize]; omega⟩
      · cases h

/-- A text can be cut between any two parts. -/
theorem cut?_append (before behind : List Char) : cut? (before ++ behind) (size before) = some (before, behind) := by
  induction before with
  | nil => cases behind <;> rfl
  | cons c cs ih =>
    obtain ⟨n, hn⟩ := Nat.exists_eq_add_of_lt c.utf8Size_pos
    have hsize : size (c :: cs) = (n + size cs) + 1 := by
      rw [size_cons]
      omega
    rw [List.cons_append, hsize, cut?, if_pos (by omega), show n + size cs + 1 - c.utf8Size = size cs by omega, ih]
    rfl

end Whiteboard.Text
