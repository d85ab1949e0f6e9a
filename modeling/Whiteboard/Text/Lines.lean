/-!
# Lines of a text

A line ends at a line feed, or at a carriage return followed by one; a carriage return alone stays in its line. The last
line needs no terminator, and a terminator at the very end opens no further line.
-/

namespace Whiteboard.Text

/-- The lines of a text, without their terminators. -/
def lines : List Char → List (List Char)
  | [] => []
  | '\n' :: cs => [] :: lines cs
  | '\r' :: '\n' :: cs => [] :: lines cs
  | c :: cs =>
    match lines cs with
    | [] => [[c]]
    | line :: rest => (c :: line) :: rest

@[simp] theorem lines_nil : lines [] = [] := rfl

theorem lines_newline (cs : List Char) : lines ('\n' :: cs) = [] :: lines cs := rfl

theorem lines_return (cs : List Char) : lines ('\r' :: '\n' :: cs) = [] :: lines cs := rfl

/-- A character that ends no line stands in front of the line behind it. -/
theorem lines_cons {c : Char} {cs : List Char} (hc : c ≠ '\n') (hreturn : ∀ tail, c = '\r' → cs = '\n' :: tail → False) :
    lines (c :: cs) =
      match lines cs with
      | [] => [[c]]
      | line :: rest => (c :: line) :: rest := by
  rw [lines]
  · exact hc
  · exact hreturn

/-- The text of the given lines, each ended by a line feed. -/
def unlines (ls : List (List Char)) : List Char := ls.flatMap (· ++ ['\n'])

end Whiteboard.Text
