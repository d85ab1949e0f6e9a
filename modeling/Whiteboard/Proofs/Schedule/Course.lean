import Whiteboard.Schedule.Scheduler

/-!
# Courses of a scheduler

A scheduler is used by several at once, and its executions end when they will. A course is what can come of it: the steps
of the scheduler in any order, with any items, at any time. Only what has begun can end: an execution ends if it is under
way, and the second step of a flush follows a first one. Between the two steps of a flush anything may happen, another
flush included. Any timer may fire, also one that counts no longer.
-/

namespace Whiteboard

namespace Scheduler

/-- What happens to a scheduler. -/
inductive Event (α : Type) where
  /-- An item comes in. -/
  | enqueue (item : α)
  /-- The item that waits is dropped. -/
  | clear
  /-- The item that waits is dropped, and what is under way no longer counts. -/
  | cancel
  /-- A flush takes its first step. -/
  | beginFlush
  /-- A flush takes its second step. -/
  | endFlush
  /-- A timer fires. -/
  | fire (timer : Nat)
  /-- The execution with the given tag ends; it took the given time. -/
  | finish (generation elapsed : Nat)
  deriving DecidableEq, Repr

/-- An event that has happened, and what came of it. -/
structure Occurrence (α : Type) where
  time : Nat
  event : Event α
  /-- What the caller is told: something was dropped, or is to start. -/
  answer : Bool := false
  /-- The execution that started. -/
  started? : Option (Start α) := none
  /-- The tag of the execution that has ceased to count. -/
  superseded? : Option Nat := none
  deriving DecidableEq, Repr

/-- The tag of the execution that a step made cease to count, if it did. -/
def superseded? (s : Scheduler α) (hit : Bool) : Option Nat := if hit then some s.generation else none

end Scheduler

/-- A scheduler, what is under way, and what has happened. -/
structure Course (α : Type) where
  scheduler : Scheduler α
  /-- The executions that have started and have not ended. -/
  tasks : List (Start α) := []
  /-- How many flushes have taken their first step only. -/
  flushes : Nat := 0
  /-- What has happened, in order. -/
  log : List (Scheduler.Occurrence α) := []
  deriving DecidableEq, Repr

namespace Course

/-- A course on which nothing has happened. -/
def ofTiming (timing : Timing) : Course α := { scheduler := .ofTiming timing }

/-- The course after a step of the scheduler. -/
def after (c : Course α) (o : Scheduler.Occurrence α) (s : Scheduler α) : Course α :=
  { c with scheduler := s, tasks := c.tasks ++ o.started?.toList, log := c.log ++ [o] }

/-- Something happens. -/
def step (c : Course α) (time : Nat) (event : Scheduler.Event α) : Course α :=
  match event with
  | .enqueue item => c.after { time, event } (c.scheduler.enqueue item)
  | .clear =>
    let (answer, s) := c.scheduler.clear
    c.after { time, event, answer } s
  | .cancel =>
    let (hit, s) := c.scheduler.cancel
    c.after { time, event, superseded? := c.scheduler.superseded? hit } s
  | .beginFlush =>
    match c.scheduler.beginFlush with
    | none => c.after { time, event } c.scheduler
    | some (hit, s) =>
      { c with flushes := c.flushes + 1 }.after
        { time, event, answer := true, superseded? := c.scheduler.superseded? hit } s
  | .endFlush =>
    if c.flushes = 0 then c
    else
      let (started?, s) := c.scheduler.endFlush
      { c with flushes := c.flushes - 1 }.after { time, event, started? } s
  | .fire timer =>
    let (started?, s) := c.scheduler.fire time timer
    c.after { time, event, started? } s
  | .finish generation elapsed =>
    if c.tasks.any (·.generation == generation) then
      let (started?, s) := c.scheduler.complete time generation elapsed
      { c with tasks := c.tasks.eraseP (·.generation == generation) }.after { time, event, started? } s
    else c

/-- One event after the other happens, each at its time. -/
def run (c : Course α) (events : List (Nat × Scheduler.Event α)) : Course α :=
  events.foldl (fun c e => c.step e.1 e.2) c

/-- The executions that have started, in order. -/
def starts (c : Course α) : List (Start α) := c.log.filterMap (·.started?)

/-- The tags of the executions that have ceased to count, in order. -/
def superseded (c : Course α) : List Nat := c.log.filterMap (·.superseded?)

@[simp] theorem scheduler_after (c : Course α) (o : Scheduler.Occurrence α) (s : Scheduler α) :
    (c.after o s).scheduler = s := rfl

@[simp] theorem tasks_after (c : Course α) (o : Scheduler.Occurrence α) (s : Scheduler α) :
    (c.after o s).tasks = c.tasks ++ o.started?.toList := rfl

@[simp] theorem starts_after (c : Course α) (o : Scheduler.Occurrence α) (s : Scheduler α) :
    (c.after o s).starts = c.starts ++ o.started?.toList := by
  simp only [starts, after, List.filterMap_append]
  cases h : o.started? <;> simp [h]

@[simp] theorem superseded_after (c : Course α) (o : Scheduler.Occurrence α) (s : Scheduler α) :
    (c.after o s).superseded = c.superseded ++ o.superseded?.toList := by
  simp only [superseded, after, List.filterMap_append]
  cases h : o.superseded? <;> simp [h]

end Course

end Whiteboard
