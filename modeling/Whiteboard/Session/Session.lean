import Whiteboard.Generation.Guard
import Whiteboard.Schedule.Clock
import Whiteboard.Schedule.Scheduler
import Whiteboard.Session.Settings
import Whiteboard.Validation.Revision

/-!
# Editing sessions

What a user says is scheduled, and each execution asks the generator for a diagram, has it checked, and puts it on the
canvas. Anything new that is said gives up the call under way. An execution that has been superseded by then leaves the
canvas alone.
-/

namespace Whiteboard

/-- A piece of what has been heard. -/
structure Utterance where
  text : String
  /-- The text will not be corrected any more. -/
  isFinal : Bool
  /-- How sure it is that this has been said. -/
  confidence : Float32
  deriving DecidableEq, Repr

/-- A piece that may still be corrected. -/
def Utterance.interim (text : String) : Utterance := ⟨text, false, 0⟩

/-- The piece that a value describes. -/
def Utterance.ofJson? (j : Json) : Option Utterance := do
  let f ← j.toFields? ["text", "isFinal", "confidence"]
  return {
    text := ← f.required "text" Json.toText?
    isFinal := ← f.required "isFinal" Json.toBool?
    confidence := ← f.required "confidence" Json.toSingle? }

/-- Why what was said did not end up on the canvas. -/
inductive SessionError where
  /-- There was no acceptable diagram. -/
  | run (cause : RunError)
  /-- The diagram could not be put on the canvas. -/
  | apply (cause : CanvasError)
  deriving DecidableEq, Repr

namespace SessionError

/-- What is said of such a failure. -/
def message : SessionError → String
  | run cause => cause.message
  | apply cause => "failed to apply diagram: " ++ cause.message

end SessionError

namespace Session

/-- What comes of a run: what has been put on the canvas, or nothing if the run was given up. -/
abbrev Result := Except SessionError (Option Apply.Outcome)

/-- An execution of the scheduler: its tag and when it began. -/
structure Execution where
  generation : Nat
  began : Nat
  deriving DecidableEq, Repr

/-- A run that waits for the answer to a call. -/
structure Job where
  /-- The execution that the run belongs to; none if it was asked for directly. -/
  execution? : Option Execution
  call : Nat
  run : Revision

/-- Something that happens by itself. -/
inductive Event where
  /-- A timer of the scheduler fires. -/
  | timer (number : Nat)
  /-- An execution begins. -/
  | begin (start : Start String)
  /-- A call ends. -/
  | answered (call : Nat) (answer : Answer)

end Session

/-- A session with a generator whose state is of type `σ` and records in a state of type `ρ`. -/
structure Session (σ ρ : Type) where
  settings : Settings
  applier : Applier ρ
  generator : Generator σ
  generatorState : σ
  records : ρ
  store : Store := {}
  scheduler : Scheduler String
  calls : CallTracker := {}
  jobs : List Session.Job := []
  clock : Clock Session.Event := {}
  /-- What came of the last run that was asked for directly. -/
  direct? : Option Session.Result := none

namespace Session

/-- A session in which nothing has happened. The mode is that of the settings. -/
def ofSettings (settings : Settings) (applier : Applier ρ) (generator : Generator σ) (generatorState : σ) (records : ρ)
    (store : Store) : Session σ ρ :=
  { settings, applier := { applier with mode := settings.mode }, generator, generatorState, records, store,
    scheduler := .ofTiming settings.timing }

/-- A call begins: the answer, if it takes no time, or else the number of the call. -/
def ask (s : Session σ ρ) (call : Call) : (Answer ⊕ Nat) × Session σ ρ :=
  let (id, calls) := s.calls.begin
  let (reply, generatorState) := s.generator s.generatorState call
  let reply := reply.limited s.settings.callLimit
  if reply.delay = 0 then (.inl reply.answer, { s with generatorState, calls := calls.finish id })
  else
    (.inr id, { s with
      generatorState, calls, clock := s.clock.setAlarm reply.delay (.answered id reply.answer) })

/-- The scheduler after a step in which an item may have started. -/
def started (s : Session σ ρ) (step : Option (Start String) × Scheduler String) : Session σ ρ :=
  { s with scheduler := step.2, clock := s.clock.postAll (step.1.toList.map .begin) }

/-- The run belongs to an execution that has been superseded. -/
def isSuperseded (s : Session σ ρ) (execution? : Option Execution) : Bool :=
  execution?.any fun e => !s.scheduler.isCurrent e.generation

/-- A run has ended, and a diagram that was accepted is put on the canvas. -/
def conclude (s : Session σ ρ) (execution? : Option Execution) :
    Except RunError Accepted → Result × Session σ ρ
  | .error e => (if e.isCancelled then .ok none else .error (.run e), s)
  | .ok accepted =>
    if s.isSuperseded execution? then (.ok none, s)
    else
      match s.applier.apply s.clock.now s.store s.records accepted.text with
      | .ok a => (.ok (some a.outcome), { s with store := a.store, records := a.records })
      | .error e => (.error (.apply e), s)

/-- What came of a run goes to the scheduler, which only learns that it has ended, or to whoever asked for it. -/
def report (s : Session σ ρ) (execution? : Option Execution) (result : Result) : Session σ ρ :=
  match execution? with
  | some e => s.started (s.scheduler.complete s.clock.now e.generation (s.clock.now - e.began))
  | none => { s with direct? := some result }

/-- A run goes on with the answer to its call, up to the next answer that takes time. -/
def proceed (s : Session σ ρ) (execution? : Option Execution) (run : Revision) (answer : Answer) : Session σ ρ :=
  match _h : run.resume answer with
  | .done result =>
    let (result, s) := s.conclude execution? result
    s.report execution? result
  | .ask call next =>
    match s.ask call with
    | (.inl answer, s) => s.proceed execution? next answer
    | (.inr id, s) => { s with jobs := s.jobs ++ [⟨execution?, id, next⟩] }
termination_by run.budget.remaining
decreasing_by exact Revision.remaining_resume ‹_›

/-- A run begins with the canvas as it is. -/
def beginRun (s : Session σ ρ) (execution? : Option Execution) (transcript : String) : Session σ ρ :=
  let scene := s.store.canvas.scene
  let request : Request := ⟨transcript, s.applier.mode, Context.ofScene scene⟩
  let pipeline := Pipeline.forMode s.settings.lint s.applier.mode (LiveIds.ofScene scene)
  let (call, run) := Revision.begin request pipeline s.settings.maxAttempts
  match s.ask call with
  | (.inl answer, s) => s.proceed execution? run answer
  | (.inr id, s) => { s with jobs := s.jobs ++ [⟨execution?, id, run⟩] }

/-- A call has ended, and the run that waits for it goes on. -/
def answered (s : Session σ ρ) (call : Nat) (answer : Answer) : Session σ ρ :=
  match s.jobs.find? (·.call == call) with
  | none => s
  | some job =>
    let s := { s with jobs := s.jobs.filter (·.call != call), calls := s.calls.finish call }
    s.proceed job.execution? job.run answer

/-- Something happens by itself. -/
def step (event : Event) (s : Session σ ρ) : Session σ ρ :=
  match event with
  | .timer number => s.started (s.scheduler.fire s.clock.now number)
  | .begin start => s.beginRun (some ⟨start.generation, s.clock.now⟩) start.item
  | .answered call answer => s.answered call answer

/-- The course of a session. -/
def course : Process (Session σ ρ) Event := ⟨(·.clock), fun s clock => { s with clock }, step⟩

/-- As many events as can happen without anything new being said: those that are set, the calls that the runs under way
may still make, and the one execution that can still start with its calls. -/
def rounds (s : Session σ ρ) : Nat :=
  s.jobs.foldl (fun sum job => sum + job.run.budget.remaining) s.clock.size +
  (AttemptBudget.ofMax s.settings.maxAttempts).remaining + 2

/-- Everything happens that is ready now. -/
def settle (s : Session σ ρ) : Session σ ρ := course.settle s.rounds s

/-- Time goes by. -/
def sleep (s : Session σ ρ) (ms : Nat) : Session σ ρ := course.runUntil (s.clock.now + ms) s.rounds s

/-- The event is the end of one of the given calls. -/
def Event.isAnswerOf (ids : List Nat) : Event → Bool
  | .answered call _ => ids.contains call
  | _ => false

/-- Every call under way is given up. -/
def cancelCalls (s : Session σ ρ) : Session σ ρ :=
  let (ids, calls) := s.calls.cancelAll
  { s with
    calls
    clock := (s.clock.drop (Event.isAnswerOf ids)).postAll (ids.map fun id => .answered id (.error .cancelled)) }

/-- What has been said, if it counts: it is final, sure enough, and not blank. -/
def heard? (s : Session σ ρ) (u : Utterance) : Option String :=
  let text := Settings.trimmed u.text
  if !u.isFinal || decide (u.confidence < s.settings.minConfidence) || text.isEmpty then none else some text

/-- Something has been said; whether it counts. If so it gives up the call under way and is scheduled. -/
def hear (s : Session σ ρ) (u : Utterance) : Bool × Session σ ρ :=
  match s.heard? u with
  | none => (false, s)
  | some text =>
    let s := s.cancelCalls
    let scheduler := s.scheduler.enqueue text
    (true, { s with scheduler, clock := s.clock.setAlarm scheduler.wait (.timer scheduler.timer) })

/-- What was said last is to be run now; whether anything waits. -/
def flush (s : Session σ ρ) : Bool × Session σ ρ :=
  match s.scheduler.beginFlush with
  | none => (false, s)
  | some (superseded, scheduler) =>
    let s := { s with scheduler }
    let s := if superseded then s.cancelCalls else s
    (true, s.started s.scheduler.endFlush)

/-- All work is given up. -/
def teardown (s : Session σ ρ) : Session σ ρ :=
  let (_, scheduler) := s.scheduler.cancel
  { s with scheduler }.cancelCalls

/-- A run that does not go through the scheduler, up to its end. -/
def runNow (s : Session σ ρ) (transcript : String) : Option Result × Session σ ρ :=
  let s := { s with direct? := none }.beginRun none transcript
  let s := course.run (·.direct?.isSome) none s.rounds s
  (s.direct?, s)

end Session

end Whiteboard
