import Whiteboard.Schedule.Timing

/-!
# The scheduler

Of the items that come in only the latest one waits. It starts when no other has come for a while, unless an execution
is still under way or the last one has only just ended; it then waits for the next item or for a flush. At most one
execution is under way at a time. A cancellation or a flush supersedes it: it goes on to its end, but no longer counts.

The functions here are the steps of the scheduler, one for each thing that can happen to it. A flush is two steps, for
whoever is told that an execution has been superseded may act in between.
-/

namespace Whiteboard

/-- A scheduler of items of type `α`. -/
structure Scheduler (α : Type) where
  timing : Timing
  /-- The item that waits. -/
  pending? : Option α := none
  /-- The execution under way counts. -/
  inFlight : Bool := false
  /-- An execution is under way, whether it counts or not. -/
  running : Bool := false
  /-- The item that waits starts as soon as the execution under way ends. -/
  flushRequested : Bool := false
  /-- The tag of the latest execution, or a later number if it has been superseded. -/
  generation : Nat := 0
  /-- What executions compare their tags with. -/
  liveGeneration : Nat := 0
  /-- When the last execution that counted ended. -/
  lastCompleted? : Option Nat := none
  /-- How long the next item waits for quiet. -/
  wait : Nat
  /-- The number of the timer that counts. -/
  timer : Nat := 0
  deriving DecidableEq, Repr

/-- An item that starts, and the tag of its execution. -/
structure Start (α : Type) where
  item : α
  generation : Nat
  deriving DecidableEq, Repr

namespace Scheduler

/-- A scheduler that nothing has happened to. -/
def ofTiming (timing : Timing) : Scheduler α := { timing, wait := timing.baseWait }

/-- The timer that was set no longer counts. -/
def stopTimer (s : Scheduler α) : Scheduler α := { s with timer := s.timer + 1 }

/-- An item comes in and takes the place of the one that waits. A timer with the new number is to fire after the wait. -/
def enqueue (s : Scheduler α) (item : α) : Scheduler α := { s.stopTimer with pending? := some item }

/-- Nothing waits any longer; whether something did. -/
def clear (s : Scheduler α) : Bool × Scheduler α :=
  (s.pending?.isSome, { s.stopTimer with pending? := none, flushRequested := false })

/-- The execution under way no longer counts; whether there was one that did. -/
def supersede (s : Scheduler α) : Bool × Scheduler α :=
  if s.inFlight then
    (true, { s with generation := s.generation + 1, inFlight := false, liveGeneration := s.generation + 1 })
  else (false, s)

/-- Nothing waits any longer and nothing under way counts; whether something under way did. -/
def cancel (s : Scheduler α) : Bool × Scheduler α := s.clear.2.supersede

/-- The item that waits starts, if there is one. -/
def start (s : Scheduler α) : Option (Start α) × Scheduler α :=
  match s.pending? with
  | none => (none, s)
  | some item =>
    (some ⟨item, s.generation + 1⟩,
      { s with
        pending? := none
        inFlight := true
        running := true
        flushRequested := false
        generation := s.generation + 1
        liveGeneration := s.generation + 1 })

/-- The first step of a flush: if an item waits, the execution under way no longer counts; whether it did. -/
def beginFlush (s : Scheduler α) : Option (Bool × Scheduler α) :=
  if s.pending?.isSome then some s.stopTimer.supersede else none

/-- The second step of a flush: the item starts, or will start once the execution under way has ended. -/
def endFlush (s : Scheduler α) : Option (Start α) × Scheduler α :=
  if s.running then (none, { s with flushRequested := true }) else s.start

/-- The last execution that counted ended less than the cooldown ago. -/
def isCooling (s : Scheduler α) (now : Nat) : Bool :=
  match s.lastCompleted? with
  | some done => now - done < s.timing.cooldown
  | none => false

/-- A timer fires. If it is the one that counts, the item starts unless something is under way or was until just now. -/
def fire (s : Scheduler α) (now timer : Nat) : Option (Start α) × Scheduler α :=
  if s.timer = timer && !s.running && !s.isCooling now then s.start else (none, s)

/-- An execution ends. If it counts, its end and its length are remembered; otherwise only a flush has been waiting
for it. -/
def complete (s : Scheduler α) (now generation elapsed : Nat) : Option (Start α) × Scheduler α :=
  let s := { s with running := false }
  if s.generation = generation then
    (none, { s with
      inFlight := false
      lastCompleted? := some now
      wait := s.timing.nextWait s.wait elapsed })
  else if s.flushRequested then s.start
  else (none, s)

/-- The execution with the given tag has not been superseded. -/
def isCurrent (s : Scheduler α) (generation : Nat) : Bool := s.liveGeneration == generation

end Scheduler

end Whiteboard
