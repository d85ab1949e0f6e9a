import Whiteboard.Proofs.Canvas.Atomicity
import Whiteboard.Proofs.Schedule.LatestWins
import Whiteboard.Proofs.Session.Run

/-!
# The course of a session

A session is used as its user likes, and its timers, executions and calls come when they will: `Session.perform` is one such
action. Main statement: whatever is done, the session goes the way of a course of its scheduler, on which its executions and
their runs are what is under way (`Session.Follows.perform`).

What an action does to the canvas, to the runs and to the course is told by `Session.Advances`. Either it leaves the canvas and
the runs alone (`Session.Advances.quiet`), or the only execution under way begins or goes on (`Session.TakenOut.continues`).
-/

namespace Whiteboard

/-! ## What a flush comes to -/

/-- Superseding tells whether anything that counts was under way. -/
theorem Scheduler.fst_supersede (s : Scheduler α) : s.supersede.1 = s.inFlight := by
  unfold supersede
  split
  · rename_i hflight
    exact hflight.symm
  · rename_i hflight
    exact (Bool.eq_false_iff.2 hflight).symm

/-- A flush that finds an item gives up what is under way. -/
theorem Scheduler.beginFlush_of_pending {s : Scheduler α} (h : s.pending?.isSome = true) :
    s.beginFlush = some (s.inFlight, s.stopTimer.supersede.2) := by
  have hhit : s.stopTimer.supersede.1 = s.inFlight := s.stopTimer.fst_supersede
  rw [beginFlush, if_pos h, ← hhit]

/-- Both steps of a flush, one right after the other. -/
theorem Course.run_flush {c : Course α} {hit : Bool} {scheduler : Scheduler α}
    (h : c.scheduler.beginFlush = some (hit, scheduler)) (time : Nat) :
    c.run [(time, .beginFlush), (time, .endFlush)] =
      (c.after { time, event := .beginFlush, answer := true, superseded? := c.scheduler.superseded? hit } scheduler).after
        { time, event := .endFlush, started? := scheduler.endFlush.1 } scheduler.endFlush.2 := by
  simp [run, step, h, after]

/-- The only execution under way ends. -/
theorem Course.run_finish {c : Course α} {start : Start α} (h : c.tasks = [start]) (time elapsed : Nat) :
    c.run [(time, .finish start.generation elapsed)] =
      { c with tasks := [] }.after
        { time, event := .finish start.generation elapsed,
          started? := (c.scheduler.complete time start.generation elapsed).1 }
        (c.scheduler.complete time start.generation elapsed).2 := by
  simp [run, step, h]

namespace Session

open Scheduler (Occurrence)

/-! ## Actions -/

/-- Something that is done to a session, or that happens by itself. -/
inductive Action where
  /-- Something has been said. -/
  | hear (u : Utterance)
  /-- What was said last is to be run now. -/
  | flush
  /-- All work is given up. -/
  | teardown
  /-- The next event happens, unless it is set for later than the given time. -/
  | next (limit? : Option Nat)
  /-- Time goes by up to the given time. -/
  | wait (time : Nat)

/-- What an action does to a session. -/
def perform (s : Session σ ρ) : Action → Session σ ρ
  | .hear u => (s.hear u).2
  | .flush => s.flush.2
  | .teardown => s.teardown
  | .next limit? =>
    match s.clock.next? limit? with
    | none => s
    | some (event, clock) => step event { s with clock }
  | .wait time => { s with clock := { s.clock with now := max time s.clock.now } }

/-- Events that happen one after the other are actions. -/
theorem exists_perform_of_run (stop : Session σ ρ → Bool) (limit? : Option Nat) (rounds : Nat) (s : Session σ ρ) :
    ∃ actions : List Action, course.run stop limit? rounds s = actions.foldl perform s := by
  induction rounds generalizing s with
  | zero => exact ⟨[], rfl⟩
  | succ rounds ih =>
    rw [Process.run]
    split
    · exact ⟨[], rfl⟩
    · split
      · exact ⟨[], rfl⟩
      · rename_i event clock hnext
        obtain ⟨actions, heq⟩ := ih (course.step event (course.withClock s clock))
        refine ⟨.next limit? :: actions, ?_⟩
        have hperform : s.perform (.next limit?) = course.step event (course.withClock s clock) := by
          have hnext : s.clock.next? limit? = some (event, clock) := hnext
          rw [perform, hnext]
          rfl
        rw [heq, List.foldl_cons, hperform]

/-- Whatever happens while time goes by, as in `Session.sleep` and `Session.settle`, is done by actions. -/
theorem exists_perform_of_runUntil (s : Session σ ρ) (time rounds : Nat) :
    ∃ actions : List Action, course.runUntil time rounds s = actions.foldl perform s := by
  obtain ⟨actions, heq⟩ := exists_perform_of_run (fun _ => false) (some time) rounds s
  refine ⟨actions ++ [.wait time], ?_⟩
  rw [List.foldl_concat, ← heq]
  rfl

/-! ## What an action is about -/

/-- What has been said, if it counts. -/
def accepted? (s : Session σ ρ) : Action → Option String
  | .hear u => s.heard? u
  | _ => none

/-- The event that happens, and the clock when it does. -/
def event? (s : Session σ ρ) : Action → Option (Event × Clock Event)
  | .next limit? => s.clock.next? limit?
  | _ => none

/-- The execution that begins. -/
def begun? (s : Session σ ρ) (a : Action) : Option (Start String) := (s.event? a).bind (·.1.begun?)

/-- The execution that begins, or goes on because a call has ended. -/
def executing? (s : Session σ ρ) (a : Action) : Option (Start String) :=
  match s.event? a with
  | some (.begin start, _) => some start
  | some (.answered call _, _) => (s.jobs.find? (·.call == call)).bind (·.start?)
  | _ => none

/-- The tag of the execution that a flush or the end of all work supersedes. -/
def overtaken? (s : Session σ ρ) : Action → Option Nat
  | .flush => if s.scheduler.pending?.isSome then s.scheduler.superseded? s.scheduler.inFlight else none
  | .teardown => s.scheduler.superseded? s.scheduler.inFlight
  | _ => none

/-- The execution that has changed the canvas. -/
def applied? (m : Moment (Session σ ρ) Action) : Option (Start String) :=
  if m.after.store.revision = m.before.store.revision then none else m.before.executing? m.event

/-- An execution that counts puts on the canvas what it has been given for its transcript and for this very canvas. -/
structure Applies (m : Moment (Session σ ρ) Action) (start : Start String) : Prop where
  current : m.before.scheduler.isCurrent start.generation = true
  result : ∃ run answer accepted applied, m.before.IsRunOf start.item run ∧ run.resume answer = .done (.ok accepted) ∧
    m.before.applier.apply m.after.clock.now m.before.store m.before.records accepted.text = .ok applied ∧
    m.after.store = applied.store ∧ m.after.records = applied.records

/-- An execution that goes on begins now, or it has a run under way. -/
theorem exists_of_executing? {s : Session σ ρ} {a : Action} {start : Start String} (h : s.executing? a = some start) :
    s.begun? a = some start ∨ ∃ job ∈ s.jobs, job.start? = some start := by
  unfold executing? at h
  split at h
  · rename_i first clock hevent
    cases h
    exact Or.inl (by rw [begun?, hevent]; rfl)
  · obtain ⟨job, hjob, hstart⟩ := Option.bind_eq_some_iff.1 h
    exact Or.inr ⟨job, List.mem_of_find?_eq_some hjob, hstart⟩
  · cases h

/-! ## Following a course -/

/-- The session goes the way of a course: they have the same scheduler, what is under way on the course are the executions of
the session, and each of its runs works for the transcript of one of them and for the canvas as it is. -/
structure Follows (s : Session σ ρ) (c : Course String) : Prop where
  scheduler : s.scheduler = c.scheduler
  underWay : s.underWay.Perm c.tasks
  jobs : ∀ job ∈ s.jobs, ∃ start, job.start? = some start ∧ s.IsRunOf start.item job.run

/-- In the beginning a session goes the way of its course. -/
theorem follows_ofSettings (settings : Settings) (applier : Applier ρ) (generator : Generator σ) (generatorState : σ)
    (records : ρ) (store : Store) :
    (ofSettings settings applier generator generatorState records store).Follows (Course.ofTiming settings.timing) :=
  ⟨rfl, List.Perm.nil, nofun⟩

/-- An action takes the session from one course to another. -/
structure Advances (m : Moment (Session σ ρ) Action) (c c' : Course String) : Prop where
  follows : m.after.Follows c'
  /-- What counts of what has been said comes in. -/
  enqueued : c'.log.filterMap (·.enqueued?) = c.log.filterMap (·.enqueued?) ++ (m.before.accepted? m.event).toList
  overtaken : ∀ tag ∈ m.before.overtaken? m.event, tag ∈ c'.superseded
  /-- An execution that changes the canvas has started before whatever is under way afterwards. -/
  order : ∀ earlier, List.Sublist (earlier ++ c.tasks) c.starts →
    List.Sublist (earlier ++ (applied? m).toList ++ c'.tasks) c'.starts
  effect : (m.after.store = m.before.store ∧ m.after.records = m.before.records) ∨
    ∃ start, m.before.executing? m.event = some start ∧ Applies m start
  /-- Where a run is under way afterwards, the canvas has not changed. -/
  jobs : ∀ job ∈ m.after.jobs, m.before.Keeps m.after ∧
    (job ∈ m.before.jobs ∨ job.start? = m.before.executing? m.event)

/-- Where the canvas stays, nothing has been put on it. -/
theorem applied?_of_store {m : Moment (Session σ ρ) Action} (h : m.after.store = m.before.store) : applied? m = none := by
  rw [applied?, h, if_pos rfl]

/-- An action that leaves the canvas and the runs alone. -/
theorem Advances.quiet {m : Moment (Session σ ρ) Action} {c c' : Course String} (started : List (Start String))
    (h : m.before.Follows c) (hkeeps : m.before.Keeps m.after) (hjobs : m.after.jobs = m.before.jobs)
    (hscheduler : m.after.scheduler = c'.scheduler)
    (hbegins : (begins m.after.clock).Perm (begins m.before.clock ++ started)) (htasks : c'.tasks = c.tasks ++ started)
    (hstarts : c'.starts = c.starts ++ started)
    (henqueued : c'.log.filterMap (·.enqueued?) = c.log.filterMap (·.enqueued?) ++ (m.before.accepted? m.event).toList)
    (hovertaken : ∀ tag ∈ m.before.overtaken? m.event, tag ∈ c'.superseded) : Advances m c c' := by
  refine ⟨⟨hscheduler, ?_, ?_⟩, henqueued, hovertaken, ?_, Or.inl ⟨hkeeps.store, hkeeps.records⟩, ?_⟩
  · rw [htasks, Session.underWay, hjobs]
    refine (hbegins.append_right _).trans ?_
    refine List.Perm.trans ?_ (h.underWay.append_right started)
    rw [Session.underWay, List.append_assoc, List.append_assoc]
    exact List.Perm.append_left _ List.perm_append_comm
  · intro job hjob
    obtain ⟨start, hstart, hrun⟩ := h.jobs job (hjobs ▸ hjob)
    exact ⟨start, hstart, hkeeps.isRunOf hrun⟩
  · intro earlier hsub
    rw [applied?_of_store hkeeps.store, htasks, hstarts, Option.toList_none, List.append_nil, ← List.append_assoc]
    exact hsub.append (List.Sublist.refl started)
  · exact fun job hjob => ⟨hkeeps, Or.inl (hjobs ▸ hjob)⟩

/-! ## Actions that leave the runs alone -/

section

variable {s : Session σ ρ} {c : Course String}

/-- Events that are posted add what they begin. -/
theorem begins_postAll (clock : Clock Event) (events : List Event) :
    (begins (clock.postAll events)).Perm (begins clock ++ events.filterMap Event.begun?) := by
  rw [begins, begins, ← List.filterMap_append]
  exact (clock.events_postAll events).filterMap _

/-- What a step of the scheduler starts is to begin. -/
theorem begins_started (s : Session σ ρ) (step : Option (Start String) × Scheduler String) :
    (begins (s.started step).clock).Perm (begins s.clock ++ step.1.toList) := by
  have h := begins_postAll s.clock (step.1.toList.map .begin)
  rw [List.filterMap_map] at h
  cases hstart : step.1 <;> simpa [started, hstart, Event.begun?] using h

/-- Setting an alarm for something else begins nothing. -/
theorem begins_setAlarm (clock : Clock Event) (delay : Nat) {event : Event} (h : event.begun? = none) :
    begins (clock.setAlarm delay event) = begins clock := by
  rw [begins, begins, Clock.events_setAlarm, List.filterMap_append]
  simp [h]

/-- Calls that are given up begin no execution. -/
theorem begins_cancelCalls (s : Session σ ρ) : (begins s.cancelCalls.clock).Perm (begins s.clock) := by
  have hkept : begins (s.clock.drop (Event.isAnswerOf s.calls.outstanding)) = begins s.clock := by
    rw [begins, begins, Clock.events_drop, List.filterMap_filter]
    refine List.filterMap_congr fun event _ => ?_
    cases event <;> simp [Event.begun?, Event.isAnswerOf]
  have hanswers : (s.calls.outstanding.map fun id => Event.answered id (.error .cancelled)).filterMap Event.begun? = [] := by
    simp [Event.begun?]
  have h := begins_postAll (s.clock.drop (Event.isAnswerOf s.calls.outstanding))
    (s.calls.outstanding.map fun id => .answered id (.error .cancelled))
  rw [hkept, hanswers, List.append_nil] at h
  exact h

/-- Where nothing changes but the clock, the course stays where it is. -/
theorem Advances.rest (h : s.Follows c) {a : Action} {s' : Session σ ρ} (hkeeps : s.Keeps s')
    (hjobs : s'.jobs = s.jobs) (hscheduler : s'.scheduler = s.scheduler) (hbegins : (begins s'.clock).Perm (begins s.clock))
    (haccepted : s.accepted? a = none) (hovertaken : s.overtaken? a = none) : Advances ⟨s, a, s'⟩ c c := by
  refine .quiet [] h hkeeps hjobs (hscheduler.trans h.scheduler) ?_ (List.append_nil _).symm
    (List.append_nil _).symm ?_ ?_
  · rw [List.append_nil]
    exact hbegins
  · rw [haccepted, Option.toList_none, List.append_nil]
  · simp [hovertaken]

/-- What is said takes the session further on its course. -/
theorem advances_hear (h : s.Follows c) (u : Utterance) :
    ∃ events, Advances ⟨s, .hear u, s.perform (.hear u)⟩ c (c.run events) := by
  cases hheard : s.heard? u with
  | none =>
    have hperform : s.perform (.hear u) = s := by simp only [perform, hear, hheard]
    rw [hperform]
    exact ⟨[], .rest h (.refl s) rfl rfl (.refl _) hheard rfl⟩
  | some text =>
    simp only [perform, hear, hheard]
    refine ⟨[(s.clock.now, .enqueue text)], .quiet [] h ⟨rfl, rfl, rfl, rfl⟩ rfl ?_ ?_ ?_ ?_ ?_ nofun⟩
    · exact congrArg (·.enqueue text) h.scheduler
    · rw [List.append_nil]
      refine List.Perm.trans (.of_eq ?_) (begins_cancelCalls s)
      exact begins_setAlarm s.cancelCalls.clock _ rfl
    · simp [Course.run, Course.step]
    · simp [Course.run, Course.step]
    · simp [Course.run, Course.step, Course.after, Occurrence.enqueued?, accepted?, hheard]

/-- A flush follows both of its steps. Calls are given up only if an execution is superseded, which makes no difference to what
is under way. -/
theorem advances_flush (h : s.Follows c) : ∃ events, Advances ⟨s, .flush, s.perform .flush⟩ c (c.run events) := by
  by_cases hpending : s.scheduler.pending?.isSome = true
  · have hbegin := Scheduler.beginFlush_of_pending hpending
    obtain ⟨mid, hperform, hkeeps, hjobs, hscheduler, hbegins⟩ : ∃ mid : Session σ ρ,
        s.perform .flush = mid.started mid.scheduler.endFlush ∧ s.Keeps mid ∧ mid.jobs = s.jobs ∧
          mid.scheduler = s.scheduler.stopTimer.supersede.2 ∧ (begins mid.clock).Perm (begins s.clock) := by
      simp only [perform, flush, hbegin]
      cases s.scheduler.inFlight
      · exact ⟨_, rfl, ⟨rfl, rfl, rfl, rfl⟩, rfl, rfl, .refl _⟩
      · exact ⟨_, rfl, ⟨rfl, rfl, rfl, rfl⟩, rfl, rfl,
          begins_cancelCalls { s with scheduler := s.scheduler.stopTimer.supersede.2 }⟩
    rw [h.scheduler] at hbegin hscheduler
    rw [hperform]
    refine ⟨[(s.clock.now, .beginFlush), (s.clock.now, .endFlush)], ?_⟩
    rw [Course.run_flush hbegin]
    refine .quiet mid.scheduler.endFlush.1.toList h
      ⟨hkeeps.settings, hkeeps.applier, hkeeps.store, hkeeps.records⟩ hjobs ?_ ?_ ?_ ?_ ?_ ?_
    · exact congrArg (·.endFlush.2) hscheduler
    · exact (begins_started mid _).trans (hbegins.append_right _)
    · simp [hscheduler]
    · simp [hscheduler]
    · simp [Course.after, Occurrence.enqueued?, accepted?]
    · intro tag htag
      rw [overtaken?, if_pos hpending] at htag
      simp [h.scheduler ▸ Option.mem_def.1 htag]
  · have hperform : s.perform .flush = s := by simp [perform, flush, Scheduler.beginFlush, hpending]
    rw [hperform]
    exact ⟨[], .rest h (.refl s) rfl rfl (.refl _) rfl (if_neg hpending)⟩

/-- Tearing down takes the session further on its course. -/
theorem advances_teardown (h : s.Follows c) : ∃ events, Advances ⟨s, .teardown, s.perform .teardown⟩ c (c.run events) := by
  refine ⟨[(s.clock.now, .cancel)], .quiet [] h ⟨rfl, rfl, rfl, rfl⟩ rfl ?_ ?_ ?_ ?_ ?_ ?_⟩
  · exact congrArg (·.cancel.2) h.scheduler
  · rw [List.append_nil]
    exact begins_cancelCalls { s with scheduler := s.scheduler.cancel.2 }
  · simp [Course.run, Course.step]
  · simp [Course.run, Course.step]
  · simp [Course.run, Course.step, Course.after, Occurrence.enqueued?, accepted?]
  · intro tag htag
    have hhit : c.scheduler.cancel.1 = c.scheduler.inFlight := c.scheduler.clear.2.fst_supersede
    have htag : c.scheduler.superseded? c.scheduler.inFlight = some tag := h.scheduler ▸ htag
    simp [Course.run, Course.step, hhit, htag]

/-- The next event takes what it begins off the clock. -/
theorem begins_of_next? {clock : Clock Event} {limit? : Option Nat} {event : Event}
    (h : s.clock.next? limit? = some (event, clock)) : (begins s.clock).Perm (event.begun?.toList ++ begins clock) := by
  have hperm := (Clock.perm_of_next? h).filterMap Event.begun?
  rw [List.filterMap_cons] at hperm
  rw [begins, begins]
  cases hbegun : event.begun? <;> simpa [hbegun] using hperm

/-- A timer takes the session further on its course. -/
theorem advances_fire (h : s.Follows c) {limit? : Option Nat} {number : Nat} {clock : Clock Event}
    (hnext : s.clock.next? limit? = some (.timer number, clock)) :
    ∃ events, Advances ⟨s, .next limit?, s.perform (.next limit?)⟩ c (c.run events) := by
  have hbegins : (begins clock).Perm (begins s.clock) := (begins_of_next? hnext).symm
  have hstarted := begins_started { s with clock } (s.scheduler.fire clock.now number)
  simp only [perform, hnext, step]
  refine ⟨[(clock.now, .fire number)], .quiet (s.scheduler.fire clock.now number).1.toList h
    ⟨rfl, rfl, rfl, rfl⟩ rfl ?_ (hstarted.trans (hbegins.append_right _)) ?_ ?_ ?_ nofun⟩
  · exact congrArg (fun s => (s.fire clock.now number).2) h.scheduler
  · simp [Course.run, Course.step, h.scheduler]
  · simp [Course.run, Course.step, h.scheduler]
  · simp [Course.run, Course.step, Course.after, Occurrence.enqueued?, accepted?]

end

/-! ## Actions in which a run goes on -/

/-- The run of the only execution under way has been taken out of the session. -/
structure TakenOut (s mid : Session σ ρ) : Prop extends Keeps s mid where
  scheduler : mid.scheduler = s.scheduler
  jobs : mid.jobs = []
  begins : begins mid.clock = []

section

variable {s mid : Session σ ρ} {c : Course String} {start : Start String} {a : Action}

/-- The run waits for an answer. -/
theorem TakenOut.waits (htaken : s.TakenOut mid) (h : s.Follows c) (htasks : c.tasks = [start])
    (hexecuting : s.executing? a = some start) (haccepted : s.accepted? a = none) (hovertaken : s.overtaken? a = none)
    {run : Revision} (hrun : s.IsRunOf start.item run) (call began : Nat) :
    Advances ⟨s, a, { mid with jobs := mid.jobs ++ [⟨some ⟨start.generation, began⟩, call, run⟩] }⟩ c c := by
  have hstart : Job.start? ⟨some ⟨start.generation, began⟩, call, run⟩ = some start := by
    rw [Job.start?, hrun.request]
    rfl
  have hkeeps : s.Keeps { mid with jobs := mid.jobs ++ [⟨some ⟨start.generation, began⟩, call, run⟩] } :=
    ⟨htaken.settings, htaken.applier, htaken.store, htaken.records⟩
  refine ⟨⟨htaken.scheduler.trans h.scheduler, ?_, ?_⟩, ?_, ?_, ?_, Or.inl ⟨htaken.store, htaken.records⟩, ?_⟩
  · simp [Session.underWay, htaken.begins, htaken.jobs, hstart, htasks]
  · intro job hjob
    rw [htaken.jobs] at hjob
    rw [List.mem_singleton.1 hjob]
    exact ⟨start, hstart, hkeeps.isRunOf hrun⟩
  · rw [haccepted, Option.toList_none, List.append_nil]
  · simp [hovertaken]
  · intro earlier hsub
    rw [applied?_of_store htaken.store, Option.toList_none, List.append_nil]
    exact hsub
  · intro job hjob
    rw [htaken.jobs] at hjob
    rw [List.mem_singleton.1 hjob, hexecuting]
    exact ⟨hkeeps, Or.inr hstart⟩

/-- The end of the only run under way is the end of its task. -/
theorem follows_report (hscheduler : mid.scheduler = c.scheduler) (hjobs : mid.jobs = []) (hbegins : begins mid.clock = [])
    (htasks : c.tasks = [start]) (began : Nat) (result : Result) :
    (mid.report (some ⟨start.generation, began⟩) result).Follows
      (c.run [(mid.clock.now, .finish start.generation (mid.clock.now - began))]) := by
  rw [Course.run_finish htasks, report]
  have hstarted := begins_started mid (mid.scheduler.complete mid.clock.now start.generation (mid.clock.now - began))
  rw [hbegins] at hstarted
  refine ⟨?_, ?_, ?_⟩
  · exact congrArg (fun s => (s.complete mid.clock.now start.generation (mid.clock.now - began)).2) hscheduler
  · simpa [Session.underWay, started, hjobs, hscheduler] using hstarted
  · intro job hjob
    have hjob : job ∈ mid.jobs := hjob
    rw [hjobs] at hjob
    cases hjob

/-- Whatever is concluded, the scheduler, the runs and the clock stay as they are. -/
theorem conclude_keeps (s : Session σ ρ) (execution? : Option Execution) (result : Except RunError Accepted) :
    (s.conclude execution? result).2.scheduler = s.scheduler ∧ (s.conclude execution? result).2.jobs = s.jobs ∧
    (s.conclude execution? result).2.clock = s.clock := by
  rcases s.conclude_eq_or execution? result with heq | ⟨-, applied, -, -, -, heq⟩
  all_goals
    rw [heq]
    exact ⟨rfl, rfl, rfl⟩

/-- The run ends, and what it has come to may have been put on the canvas. -/
theorem TakenOut.ends (htaken : s.TakenOut mid) (h : s.Follows c) (htasks : c.tasks = [start])
    (hexecuting : s.executing? a = some start) (haccepted : s.accepted? a = none) (hovertaken : s.overtaken? a = none)
    {run : Revision} {answer : Answer} {result : Except RunError Accepted} (hrun : s.IsRunOf start.item run)
    (hdone : run.resume answer = .done result) (began : Nat) :
    Advances ⟨s, a, (mid.conclude (some ⟨start.generation, began⟩) result).2.report (some ⟨start.generation, began⟩)
      (mid.conclude (some ⟨start.generation, began⟩) result).1⟩ c
      (c.run [(mid.clock.now, .finish start.generation (mid.clock.now - began))]) := by
  have hcourse := Course.run_finish htasks mid.clock.now (mid.clock.now - began)
  obtain ⟨hscheduler, hjobs, hclock⟩ := mid.conclude_keeps (some ⟨start.generation, began⟩) result
  have hfollows := follows_report (hscheduler.trans (htaken.scheduler.trans h.scheduler)) (hjobs.trans htaken.jobs)
    (by rw [hclock, htaken.begins]) htasks began (mid.conclude (some ⟨start.generation, began⟩) result).1
  rw [hclock] at hfollows
  refine ⟨hfollows, ?_, ?_, ?_, ?_, ?_⟩
  · simp [hcourse, Course.after, Occurrence.enqueued?, haccepted]
  · simp [hovertaken]
  · intro earlier hsub
    have hown : List.Sublist (applied? ⟨s, a, (mid.conclude (some ⟨start.generation, began⟩) result).2.report
        (some ⟨start.generation, began⟩) (mid.conclude (some ⟨start.generation, began⟩) result).1⟩).toList [start] := by
      unfold applied?
      split
      · exact List.nil_sublist _
      · rw [hexecuting]
        exact List.Sublist.refl _
    rw [htasks] at hsub
    rw [hcourse, Course.tasks_after, Course.starts_after]
    exact ((hown.append_left earlier).trans hsub).append (List.Sublist.refl _)
  · rcases mid.conclude_eq_or (some ⟨start.generation, began⟩) result with
      heq | ⟨accepted, applied, rfl, hcurrent, happly, heq⟩
    · exact Or.inl ⟨(congrArg (·.store) heq).trans htaken.store, (congrArg (·.records) heq).trans htaken.records⟩
    · rw [htaken.applier, htaken.store, htaken.records, ← hclock] at happly
      refine Or.inr ⟨start, hexecuting, ?_, run, answer, accepted, applied, hrun, hdone, happly,
        congrArg (·.store) heq, congrArg (·.records) heq⟩
      simpa [isSuperseded, htaken.scheduler] using hcurrent
  · intro job hjob
    have hjob : job ∈ (mid.conclude (some ⟨start.generation, began⟩) result).2.jobs := hjob
    rw [hjobs, htaken.jobs] at hjob
    cases hjob

/-- The run of the only execution under way goes on. -/
theorem TakenOut.continues (htaken : s.TakenOut mid) (h : s.Follows c) (htasks : c.tasks = [start])
    (hexecuting : s.executing? a = some start) (haccepted : s.accepted? a = none) (hovertaken : s.overtaken? a = none)
    {began : Nat} {s' : Session σ ρ} (hcontinues : mid.Continues (some ⟨start.generation, began⟩) start.item s') :
    ∃ events, Advances ⟨s, a, s'⟩ c (c.run events) := by
  have htaken' : ∀ later, mid.Asked later → s.TakenOut later := fun later hasked =>
    ⟨htaken.toKeeps.trans hasked.toKeeps, hasked.scheduler.trans htaken.scheduler, hasked.jobs.trans htaken.jobs,
      hasked.begins.trans htaken.begins⟩
  cases hcontinues with
  | waits call hasked hrun =>
    exact ⟨[], (htaken' _ hasked).waits h htasks hexecuting haccepted hovertaken (htaken.toKeeps.symm.isRunOf hrun)
      call began⟩
  | ends hasked hrun hdone =>
    exact ⟨_, (htaken' _ hasked).ends h htasks hexecuting haccepted hovertaken (htaken.toKeeps.symm.isRunOf hrun) hdone
      began⟩

/-- Every run under way is that of an execution. -/
theorem Follows.length_jobs (h : s.Follows c) : (s.jobs.filterMap Job.start?).length = s.jobs.length := by
  rw [List.length_filterMap_eq_countP, List.countP_eq_length]
  intro job hjob
  obtain ⟨start, hstart, -⟩ := h.jobs job hjob
  rw [hstart]
  rfl

/-- If there is an execution under way, there is no other. -/
theorem Follows.alone (h : s.Follows c) (htracked : c.IsTracked) (hmem : start ∈ s.underWay) :
    c.tasks = [start] ∧ s.underWay = [start] := by
  have htasks := Scheduler.Tracks.tasks_eq_singleton htracked (h.underWay.subset hmem)
  exact ⟨htasks, List.perm_singleton.1 (htasks ▸ h.underWay)⟩

/-- An execution that begins takes the session further on its course. -/
theorem advances_begin (h : s.Follows c) (htracked : c.IsTracked) {limit? : Option Nat} {clock : Clock Event}
    (hnext : s.clock.next? limit? = some (.begin start, clock)) :
    ∃ events, Advances ⟨s, .next limit?, s.perform (.next limit?)⟩ c (c.run events) := by
  have hbegins : (begins s.clock).Perm (start :: begins clock) := begins_of_next? hnext
  obtain ⟨htasks, halone⟩ := h.alone htracked (List.mem_append_left _ (hbegins.symm.subset List.mem_cons_self))
  have hlengths := congrArg List.length halone
  rw [underWay, List.length_append, h.length_jobs, hbegins.length_eq] at hlengths
  simp only [List.length_cons, List.length_nil] at hlengths
  have htaken : s.TakenOut { s with clock } :=
    ⟨⟨rfl, rfl, rfl, rfl⟩, rfl, List.eq_nil_of_length_eq_zero (by simp only; omega),
      List.eq_nil_of_length_eq_zero (by simp only; omega)⟩
  have hexecuting : s.executing? (.next limit?) = some start := by rw [executing?, event?, hnext]
  simp only [perform, hnext, step]
  exact htaken.continues h htasks hexecuting rfl rfl (continues_beginRun _ _ _)

/-- An answer ends a call that nobody waits for, or the run that waits for it goes on; the run whose call has ended is the only
one. -/
theorem advances_answered (h : s.Follows c) (htracked : c.IsTracked) {limit? : Option Nat} {clock : Clock Event} {call : Nat}
    {answer : Answer} (hnext : s.clock.next? limit? = some (.answered call answer, clock)) :
    ∃ events, Advances ⟨s, .next limit?, s.perform (.next limit?)⟩ c (c.run events) := by
  have hbegins : (begins clock).Perm (begins s.clock) := (begins_of_next? hnext).symm
  cases hfind : s.jobs.find? (·.call == call) with
  | none =>
    have hperform : s.perform (.next limit?) = { s with clock } := by simp only [perform, hnext, step, answered, hfind]
    rw [hperform]
    exact ⟨[], .rest h ⟨rfl, rfl, rfl, rfl⟩ rfl rfl hbegins rfl rfl⟩
  | some job =>
    have hjob := List.mem_of_find?_eq_some hfind
    obtain ⟨start, hstart, hrun⟩ := h.jobs job hjob
    obtain ⟨htasks, halone⟩ := h.alone htracked (List.mem_append_right _ (List.mem_filterMap.2 ⟨job, hjob, hstart⟩))
    have hlengths := congrArg List.length halone
    have hpositive := List.length_pos_of_mem hjob
    rw [underWay, List.length_append, h.length_jobs, ← hbegins.length_eq] at hlengths
    simp only [List.length_cons, List.length_nil] at hlengths
    have hothers : s.jobs.filter (·.call != call) = [] := by
      obtain ⟨only, honly⟩ := List.length_eq_one_iff.1 (show s.jobs.length = 1 by omega)
      rw [honly] at hjob
      have hcall := List.find?_some hfind
      rw [honly, ← List.mem_singleton.1 hjob]
      simpa using hcall
    have htaken : s.TakenOut { s with
        clock, jobs := s.jobs.filter (·.call != call), calls := s.calls.finish call } :=
      ⟨⟨rfl, rfl, rfl, rfl⟩, rfl, hothers, List.eq_nil_of_length_eq_zero (by simp only; omega)⟩
    have hexecuting : s.executing? (.next limit?) = some start := by
      rw [executing?, event?, hnext]
      simp [hfind, hstart]
    obtain ⟨e, he, rfl⟩ := Option.map_eq_some_iff.1 hstart
    simp only [perform, hnext, step, answered, hfind, he]
    exact htaken.continues h htasks hexecuting rfl rfl (continues_proceed (htaken.toKeeps.isRunOf hrun) _ _)

/-- Whatever is done to a session that goes the way of a course, it goes on the way of the course. -/
theorem Follows.perform (h : s.Follows c) (htracked : c.IsTracked) (a : Action) :
    ∃ events, Advances ⟨s, a, s.perform a⟩ c (c.run events) := by
  cases a with
  | hear u => exact advances_hear h u
  | flush => exact advances_flush h
  | teardown => exact advances_teardown h
  | next limit? =>
    cases hnext : s.clock.next? limit? with
    | none =>
      have hperform : s.perform (.next limit?) = s := by simp only [Session.perform, hnext]
      rw [hperform]
      exact ⟨[], .rest h (.refl s) rfl rfl (.refl _) rfl rfl⟩
    | some happens =>
      obtain ⟨event, clock⟩ := happens
      cases event with
      | timer number => exact advances_fire h hnext
      | begin start => exact advances_begin h htracked hnext
      | answered call answer => exact advances_answered h htracked hnext
  | wait time => exact ⟨[], .rest h ⟨rfl, rfl, rfl, rfl⟩ rfl rfl (.refl _) rfl rfl⟩

end

end Session

end Whiteboard
