import Whiteboard.Text.CharClass

/-!
# Keywords in a line

A keyword that begins or ends with a letter, a digit or an underscore counts only where a word begins or ends.
-/

namespace Whiteboard.Text.Keyword

/-- An end of a keyword that has to fall on a word boundary: an ASCII letter or digit or an underscore. -/
def isWordEdge (c : Char) : Bool := c.isAlphanum || c == '_'

/-- Whether `keyword` occurs at the head of `rest`, where `before` is the character in front. -/
def occursAt (keyword : List Char) (before : Option Char) (rest : List Char) : Bool :=
  keyword.isPrefixOf rest &&
  (!keyword.head?.any isWordEdge || isWordBoundary before rest.head?) &&
  (!keyword.getLast?.any isWordEdge || isWordBoundary keyword.getLast? (rest.drop keyword.length).head?)

/-- The number of characters before the first place where the non-empty `keyword` occurs in `rest`, after `passed`
others of which `before` is the last. -/
def findFrom (keyword : List Char) (before : Option Char) (passed : Nat) : List Char → Option Nat
  | [] => none
  | c :: cs =>
    if occursAt keyword before (c :: cs) then some passed
    else findFrom keyword (some c) (passed + 1) cs

/-- The number of characters before the first place where `keyword` occurs in the line. -/
def find? (keyword line : List Char) : Option Nat := findFrom keyword none 0 line

end Whiteboard.Text.Keyword
