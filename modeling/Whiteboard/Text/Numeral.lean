/-!
# Decimal numerals

The number that a run of ASCII digits stands for.
-/

namespace Whiteboard.Text

/-- The value of a digit. -/
def digitValue (c : Char) : Nat := c.toNat - '0'.toNat

/-- The number that a run of digits stands for. -/
def natOfDigits (digits : List Char) : Nat := digits.foldl (fun n c => 10 * n + digitValue c) 0

/-- The digits of a number, the most significant one first. -/
def digitsOfNat (n : Nat) : List Char := (toString n).toList

end Whiteboard.Text
