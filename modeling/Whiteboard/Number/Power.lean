/-!
# Powers of two and ten
-/

namespace Whiteboard

/-- A power of two. -/
abbrev pow2 (n : Nat) : Nat := Nat.pow 2 n

/-- A power of ten. -/
abbrev pow10 (n : Nat) : Nat := Nat.pow 10 n

/-- The greatest number of so many bits. -/
def maxWord (bits : Nat) : Nat := pow2 bits - 1

end Whiteboard
