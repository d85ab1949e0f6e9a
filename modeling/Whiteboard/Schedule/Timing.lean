/-!
# The timing of a schedule

All times are in milliseconds.
-/

namespace Whiteboard

/-- How long to wait before an item is run. -/
structure Timing where
  /-- The wait for quiet at first and after a fast execution. -/
  baseWait : Nat := 1000
  /-- The wait for quiet after a slow execution. -/
  slowWait : Nat := 2500
  /-- An execution longer than this is slow. -/
  slowThreshold : Nat := 8000
  /-- An execution shorter than this is fast. -/
  fastThreshold : Nat := 3000
  /-- The least time between the end of an execution and the next start. -/
  cooldown : Nat := 1500
  deriving DecidableEq, Repr

/-- The wait for quiet after an execution that took `elapsed`; one that was neither slow nor fast leaves it as it is. -/
def Timing.nextWait (t : Timing) (current elapsed : Nat) : Nat :=
  if t.slowThreshold < elapsed then t.slowWait
  else if elapsed < t.fastThreshold then t.baseWait
  else current

end Whiteboard
