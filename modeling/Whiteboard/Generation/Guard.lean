import Whiteboard.Generation.Request
import Whiteboard.Schedule.Clock

/-!
# Guarded calls

A call is given a limited time, and all calls under way can be given up at once. A call that ends exactly at its limit
counts as done. `GuardedCalls` lets independent calls run side by side along a clock and notes how they end.
-/

namespace Whiteboard

/-- The reply within the time limit: its own, or a failure at the limit. -/
def Reply.limited (r : Reply) (limit : Nat) : Reply :=
  if r.delay ≤ limit then r else ⟨limit, .error (.timedOut limit)⟩

/-- The calls under way. -/
structure CallTracker where
  outstanding : List Nat := []
  /-- The number of the next call. -/
  next : Nat := 0
  deriving DecidableEq, Repr

namespace CallTracker

/-- A call begins and gets a number that no call has had before. -/
def begin (t : CallTracker) : Nat × CallTracker :=
  (t.next, { outstanding := t.outstanding ++ [t.next], next := t.next + 1 })

/-- A call has ended. -/
def finish (t : CallTracker) (id : Nat) : CallTracker := { t with outstanding := t.outstanding.filter (· != id) }

/-- All calls are given up; the numbers of those that were under way. -/
def cancelAll (t : CallTracker) : List Nat × CallTracker := (t.outstanding, { t with outstanding := [] })

end CallTracker

namespace GuardedCalls

/-- A call ends. -/
structure Ending where
  call : Nat
  answer : Answer

/-- How a call ended, and when. -/
structure Outcome where
  call : Nat
  time : Nat
  answer : Answer

end GuardedCalls

/-- Guarded calls of a generator along a clock. -/
structure GuardedCalls (σ : Type) where
  /-- The time limit of each call. -/
  limit : Nat
  generator : Generator σ
  state : σ
  tracker : CallTracker := {}
  clock : Clock GuardedCalls.Ending := {}
  /-- The calls that have ended, in order. -/
  outcomes : List GuardedCalls.Outcome := []

namespace GuardedCalls

/-- A call ends with an answer. -/
def finish (g : GuardedCalls σ) (e : Ending) : GuardedCalls σ :=
  { g with tracker := g.tracker.finish e.call, outcomes := g.outcomes ++ [⟨e.call, g.clock.now, e.answer⟩] }

/-- A call begins; the number it has. -/
def call (g : GuardedCalls σ) (call : Call) : Nat × GuardedCalls σ :=
  let (id, tracker) := g.tracker.begin
  let (reply, state) := g.generator g.state call
  let reply := reply.limited g.limit
  let g := { g with tracker, state }
  if reply.delay = 0 then (id, g.finish ⟨id, reply.answer⟩)
  else (id, { g with clock := g.clock.setAlarm reply.delay ⟨id, reply.answer⟩ })

/-- Nobody waits for a call any longer; it ends without an outcome. -/
def drop (g : GuardedCalls σ) (id : Nat) : GuardedCalls σ :=
  { g with tracker := g.tracker.finish id, clock := g.clock.drop (·.call == id) }

/-- Every call under way is given up; how many there were. -/
def cancelAll (g : GuardedCalls σ) : Nat × GuardedCalls σ :=
  let (ids, tracker) := g.tracker.cancelAll
  (ids.length, { g with
    tracker
    clock := (g.clock.drop (ids.contains ·.call)).postAll (ids.map fun id => ⟨id, .error .cancelled⟩) })

/-- The course of guarded calls. -/
def course : Process (GuardedCalls σ) Ending := ⟨(·.clock), fun g clock => { g with clock }, fun e g => g.finish e⟩

/-- Everything happens that is ready now. -/
def settle (g : GuardedCalls σ) : GuardedCalls σ := course.settle g.clock.size g

/-- Time goes by. -/
def sleep (g : GuardedCalls σ) (ms : Nat) : GuardedCalls σ := course.runUntil (g.clock.now + ms) g.clock.size g

end GuardedCalls

end Whiteboard
