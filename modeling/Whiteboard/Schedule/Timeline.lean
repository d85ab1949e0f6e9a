import Whiteboard.Schedule.Clock
import Whiteboard.Schedule.Scheduler

/-!
# A scheduler along a clock

Here items are pieces of work of which only the length matters. A timeline lets timers fire and executions begin and end
as time goes by, and notes what happens.
-/

namespace Whiteboard

/-- A piece of work that takes a number of milliseconds. -/
structure Work where
  name : String
  takes : Nat
  deriving DecidableEq, Repr

namespace Timeline

/-- Something that happens by itself. -/
inductive Event where
  /-- A timer fires. -/
  | timer (number : Nat)
  /-- An execution begins. -/
  | begin (start : Start Work)
  /-- An execution that began at the given time ends. -/
  | finish (start : Start Work) (began : Nat)
  deriving DecidableEq, Repr

/-- What is noted. -/
inductive Note where
  /-- An execution has begun, and whether it counts. -/
  | started (work : Work) (time generation : Nat) (current : Bool)
  /-- An execution has ended, and whether it counts. -/
  | finished (work : Work) (time generation : Nat) (current : Bool)
  /-- Someone has been told that the execution under way no longer counts. -/
  | told (listener time : Nat)
  deriving DecidableEq, Repr

end Timeline

/-- A scheduler along a clock. -/
structure Timeline where
  scheduler : Scheduler Work
  clock : Clock Timeline.Event := {}
  /-- The number of those who are told when an execution no longer counts. -/
  listeners : Nat := 0
  /-- What has been noted, in order. -/
  notes : List Timeline.Note := []
  deriving DecidableEq, Repr

namespace Timeline

/-- A timeline on which nothing has happened. -/
def ofTiming (timing : Timing) : Timeline := { scheduler := .ofTiming timing }

/-- The scheduler after a step in which an item may have started. -/
def started (t : Timeline) (step : Option (Start Work) × Scheduler Work) : Timeline :=
  { t with scheduler := step.2, clock := t.clock.postAll (step.1.toList.map .begin) }

/-- One more note. -/
def note (t : Timeline) (n : Note) : Timeline := { t with notes := t.notes ++ [n] }

/-- An execution ends. -/
def finish (t : Timeline) (start : Start Work) (began : Nat) : Timeline :=
  let t := t.note (.finished start.item t.clock.now start.generation (t.scheduler.isCurrent start.generation))
  t.started (t.scheduler.complete t.clock.now start.generation (t.clock.now - began))

/-- An execution begins; one that takes no time ends at once. -/
def begin (t : Timeline) (start : Start Work) : Timeline :=
  let now := t.clock.now
  let t := t.note (.started start.item now start.generation (t.scheduler.isCurrent start.generation))
  if start.item.takes = 0 then t.finish start now
  else { t with clock := t.clock.setAlarm start.item.takes (.finish start now) }

/-- Something happens by itself. -/
def step (event : Event) (t : Timeline) : Timeline :=
  match event with
  | .timer number => t.started (t.scheduler.fire t.clock.now number)
  | .begin start => t.begin start
  | .finish start began => t.finish start began

/-- The course of a timeline. -/
def course : Process Timeline Event := ⟨(·.clock), fun t clock => { t with clock }, step⟩

/-- As many events as can happen without a new item: those that are set, and the beginning and the end of the one
execution that can still start. -/
def rounds (t : Timeline) : Nat := t.clock.size + 2

/-- Everything happens that is ready now. -/
def settle (t : Timeline) : Timeline := course.settle t.rounds t

/-- Time goes by. -/
def sleep (t : Timeline) (ms : Nat) : Timeline := course.runUntil (t.clock.now + ms) t.rounds t

/-- Everyone is told that the execution under way no longer counts. -/
def tell (t : Timeline) : Timeline :=
  (List.range t.listeners).foldl (fun t listener => t.note (.told listener t.clock.now)) t

/-- One more listener. -/
def listen (t : Timeline) : Timeline := { t with listeners := t.listeners + 1 }

/-- A piece of work comes in. -/
def enqueue (t : Timeline) (work : Work) : Timeline :=
  let scheduler := t.scheduler.enqueue work
  { t with scheduler, clock := t.clock.setAlarm scheduler.wait (.timer scheduler.timer) }

/-- Nothing waits any longer; whether something did. -/
def clear (t : Timeline) : Bool × Timeline :=
  let (dropped, scheduler) := t.scheduler.clear
  (dropped, { t with scheduler })

/-- Nothing waits any longer and nothing under way counts. -/
def cancel (t : Timeline) : Timeline :=
  let (superseded, scheduler) := t.scheduler.cancel
  let t := { t with scheduler }
  if superseded then t.tell else t

/-- The work that waits is to start now; whether there is any. -/
def flush (t : Timeline) : Bool × Timeline :=
  match t.scheduler.beginFlush with
  | none => (false, t)
  | some (superseded, scheduler) =>
    let t := { t with scheduler }
    let t := if superseded then t.tell else t
    (true, t.started t.scheduler.endFlush)

end Timeline

end Whiteboard
