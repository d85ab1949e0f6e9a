/-!
# A clock with alarms

Time stands still while anything is ready to happen, and then jumps to the next alarm. What is due at one instant
becomes ready in the order in which the alarms were set, and what becomes ready in the meantime comes after it.
-/

namespace Whiteboard

/-- An event at a time. -/
structure Alarm (ε : Type) where
  due : Nat
  event : ε
  deriving DecidableEq, Repr

/-- A clock, what is ready to happen now, and what will happen later. -/
structure Clock (ε : Type) where
  now : Nat := 0
  /-- What happens next, in order. -/
  ready : List ε := []
  /-- What happens later, in the order in which it was set. -/
  alarms : List (Alarm ε) := []
  deriving DecidableEq, Repr

namespace Clock

/-- An event becomes ready, after everything that is ready already. -/
def post (c : Clock ε) (event : ε) : Clock ε := { c with ready := c.ready ++ [event] }

/-- Events become ready in order. -/
def postAll (c : Clock ε) (events : List ε) : Clock ε := { c with ready := c.ready ++ events }

/-- An event is set for a later time. -/
def setAlarm (c : Clock ε) (delay : Nat) (event : ε) : Clock ε :=
  { c with alarms := c.alarms ++ [⟨c.now + delay, event⟩] }

/-- The events that satisfy `p` will not happen. -/
def drop (c : Clock ε) (p : ε → Bool) : Clock ε :=
  { c with ready := c.ready.filter (!p ·), alarms := c.alarms.filter fun a => !p a.event }

/-- The time of the next alarm. -/
def nextDue? (c : Clock ε) : Option Nat := (c.alarms.map (·.due)).min?

/-- The time jumps to the given one, and what is due by then becomes ready. -/
def jump (c : Clock ε) (time : Nat) : Clock ε :=
  let (due, later) := c.alarms.partition fun a => a.due ≤ time
  { now := time, ready := c.ready ++ due.map (·.event), alarms := later }

/-- The next event up to the given time, if there is a limit, and the clock when it happens. -/
def next? (c : Clock ε) (limit? : Option Nat) : Option (ε × Clock ε) :=
  match c.ready with
  | event :: rest => some (event, { c with ready := rest })
  | [] =>
    match c.nextDue? with
    | none => none
    | some time =>
      if limit?.any (· < time) then none
      else
        let c := c.jump time
        match c.ready with
        | event :: rest => some (event, { c with ready := rest })
        | [] => none

/-- The number of events that are ready or set. -/
def size (c : Clock ε) : Nat := c.ready.length + c.alarms.length

end Clock

/-- Something that happens along a clock: its state, and what each event does to it. -/
structure Process (σ ε : Type) where
  clock : σ → Clock ε
  withClock : σ → Clock ε → σ
  step : ε → σ → σ

namespace Process

/-- Events happen one after the other until the state satisfies `stop`, none is left up to the limit, or the given
number of them have happened. -/
def run (p : Process σ ε) (stop : σ → Bool) (limit? : Option Nat) : Nat → σ → σ
  | 0, s => s
  | rounds + 1, s =>
    if stop s then s
    else
      match (p.clock s).next? limit? with
      | none => s
      | some (event, clock) => p.run stop limit? rounds (p.step event (p.withClock s clock))

/-- Everything happens up to a time, which the clock then shows. -/
def runUntil (p : Process σ ε) (time rounds : Nat) (s : σ) : σ :=
  let s := p.run (fun _ => false) (some time) rounds s
  p.withClock s { p.clock s with now := max time (p.clock s).now }

/-- Everything happens that is ready now. -/
def settle (p : Process σ ε) (rounds : Nat) (s : σ) : σ := p.runUntil (p.clock s).now rounds s

end Process

end Whiteboard
