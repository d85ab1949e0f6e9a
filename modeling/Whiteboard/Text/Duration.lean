import Whiteboard.Text.Blank
import Whiteboard.Text.Numeral

/-!
# Durations for a reader
-/

namespace Whiteboard.Text

/-- The milliseconds beyond the last full second as decimal places, without trailing zeros. -/
def secondPlaces (ms : Nat) : List Char :=
  dropEndWhile (· == '0') ((digitsOfNat (1000 + ms % 1000)).drop 1)

/-- A number of milliseconds in seconds, or in milliseconds below one second, or as no nanoseconds. -/
def duration (ms : Nat) : String :=
  if ms = 0 then "0ns"
  else if ms < 1000 then toString ms ++ "ms"
  else
    let places := secondPlaces ms
    toString (ms / 1000) ++ (if places.isEmpty then "" else "." ++ String.ofList places) ++ "s"

end Whiteboard.Text
