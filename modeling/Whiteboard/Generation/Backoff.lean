/-!
# Waiting before another try

The wait before each further try is the one before it times a factor, up to a limit. It is computed in double precision
and cut down to a whole number of milliseconds.
-/

namespace Whiteboard

/-- How often a request is tried, and how long to wait between the tries. -/
structure RetryPolicy where
  /-- The number of tries, the first one included. -/
  maxAttempts : Nat := 3
  /-- The first wait in milliseconds. -/
  initialDelay : Nat := 200
  /-- No wait is longer than this. -/
  maxDelay : Nat := 5000
  factor : Float := 2
  deriving DecidableEq, Repr

namespace RetryPolicy

/-- The power with a natural exponent as `acc * base ^ n`, by repeated squaring from the lowest bit of the exponent. -/
def powerOnto (acc base : Float) (n : Nat) : Float :=
  let acc := if n % 2 = 1 then acc * base else acc
  if n < 2 then acc else powerOnto acc (base * base) (n / 2)

/-- The power with an integer exponent; for a negative one the reciprocal is taken last. -/
def power (base : Float) (n : Int) : Float :=
  if n < 0 then 1 / powerOnto 1 base n.natAbs else powerOnto 1 base n.natAbs

/-- The exponent for a number of waits, as a signed integer of 32 bits. -/
def exponentOf (waits : Nat) : Int := Int.bmod waits 4294967296

/-- The smaller of two numbers; the first does not count if it is not a number. -/
def atMost (x limit : Float) : Float := if x ≤ limit then x else limit

/-- The wait in milliseconds after the given number of earlier waits. -/
def delay (p : RetryPolicy) (waits : Nat) : Nat :=
  (atMost (Float.ofNat p.initialDelay * power p.factor (exponentOf waits)) (Float.ofNat p.maxDelay)).toUInt64.toNat

end RetryPolicy

end Whiteboard
