import Whiteboard.Proofs.Schedule.Timekeeping
import Whiteboard.Schedule.Clock

/-!
# Starts in time

On a course any timer may fire at any time. On an agenda time goes by, and a timer that has been set fires when its time has come
or later, be it one that counts or not; everything else happens as on a course.

Main statement: `Agenda.punctual`. An item starts by its timer when it has waited for quiet as long as it had to and nothing is
under way or has only just ended, or by a flush. The timer that counts is the one that was set for the last item that came in
(`Agenda.IsSet`): every step passes that on, or makes the timer count no longer.
-/

namespace Whiteboard

open Scheduler

/-- A course along which time goes by. -/
structure Agenda (α : Type) where
  course : Course α
  now : Nat := 0
  /-- The timers that have been set and have not fired. -/
  timers : List (Alarm Nat) := []

namespace Agenda

/-- An agenda on which nothing has happened. -/
def ofTiming (timing : Timing) : Agenda α := { course := .ofTiming timing }

/-- Some time goes by, and then something happens. -/
def step (a : Agenda α) (pause : Nat) (event : Event α) : Agenda α :=
  let now := a.now + pause
  let next : Agenda α := { a with course := a.course.step now event, now }
  match event with
  | .enqueue item =>
    let s := a.course.scheduler.enqueue item
    { next with timers := a.timers ++ [⟨now + s.wait, s.timer⟩] }
  | .fire timer =>
    if a.timers.any fun t => t.event == timer && t.due ≤ now then
      { next with timers := a.timers.filter (·.event != timer) }
    else { a with now }
  | _ => next

/-- One event after the other happens, each after a pause. -/
def run (a : Agenda α) (events : List (Nat × Event α)) : Agenda α := events.foldl (fun a e => a.step e.1 e.2) a

/-- A timer has been set for an item that came in, to fire when the item has waited as long as it had to by what had happened
before; and it has not been stopped since. -/
def IsSet (timing : Timing) (log : List (Occurrence α)) (due : Nat) : Prop :=
  ∃ earlier e between item, log = earlier ++ e :: between ∧ e.event = .enqueue item ∧
    e.time + waitAfter timing earlier = due ∧ ∀ p ∈ between, p.stopsTimer = false

/-- The course is right about what has happened, and the timers are. -/
structure IsKept (timing : Timing) (a : Agenda α) : Prop where
  tracked : a.course.IsTracked
  latest : a.course.HoldsLatest
  timed : a.course.IsTimed timing
  ordered : (a.course.log.map (·.time)).Pairwise (· ≤ ·)
  past : ∀ o ∈ a.course.log, o.time ≤ a.now
  timers : ∀ t ∈ a.timers, t.event ≤ a.course.scheduler.timer ∧
    (t.event = a.course.scheduler.timer → IsSet timing a.course.log t.due)

/-- In the beginning every timer and every time is as it should be. -/
theorem isKept_ofTiming (timing : Timing) : (ofTiming timing : Agenda α).IsKept timing :=
  ⟨Course.isTracked_ofTiming timing, Course.holdsLatest_ofTiming timing, Course.isTimed_ofTiming timing, List.Pairwise.nil,
    List.forall_mem_nil _, List.forall_mem_nil _⟩

section

variable {timing : Timing} {a : Agenda α} {c' : Course α} {o : Occurrence α}

/-- Time goes by. -/
theorem IsKept.wait (h : a.IsKept timing) (pause : Nat) : IsKept timing { a with now := a.now + pause } :=
  ⟨h.tracked, h.latest, h.timed, h.ordered, fun o ho => Nat.le_add_right_of_le (h.past o ho), h.timers⟩

/-- A timer that was set stays so, unless it is stopped. -/
theorem IsKept.timers_of_turns (h : a.IsKept timing) (hturns : a.course.Turns o c') (hlog : c'.log = a.course.log ++ [o]) :
    ∀ t ∈ a.timers, t.event ≤ c'.scheduler.timer ∧ (t.event = c'.scheduler.timer → IsSet timing c'.log t.due) := by
  intro t ht
  obtain ⟨hle, hset⟩ := h.timers t ht
  have htimer := hturns.scheduler.timer
  cases hstops : o.stopsTimer with
  | true =>
    rw [hstops, if_pos rfl] at htimer
    exact ⟨by omega, fun heq => by omega⟩
  | false =>
    rw [hstops, if_neg Bool.false_ne_true] at htimer
    refine ⟨htimer ▸ hle, fun heq => ?_⟩
    obtain ⟨earlier, e, between, item, hsplit, he, hdue, hquiet⟩ := hset (heq.trans htimer)
    refine ⟨earlier, e, between ++ [o], item, by simp [hlog, hsplit], he, hdue, ?_⟩
    exact List.forall_mem_append.2 ⟨hquiet, List.forall_mem_singleton.2 hstops⟩

/-- Something happens, and time has gone by. -/
theorem IsKept.happen (h : a.IsKept timing) (pause : Nat) (event : Event α) {timers : List (Alarm Nat)}
    (htimers : ∀ t ∈ timers, t ∈ a.timers ∨ ∃ item, event = .enqueue item ∧
      t = ⟨a.now + pause + a.course.scheduler.wait, (a.course.scheduler.enqueue item).timer⟩) :
    IsKept timing { course := a.course.step (a.now + pause) event, now := a.now + pause, timers } := by
  have htracked := h.tracked.step (a.now + pause) event
  have hlatest := h.latest.step (a.now + pause) event
  have htimed := h.timed.step h.tracked (a.now + pause) event
  rcases a.course.step_turns (a.now + pause) event with hsame | ⟨o, hlog, htime, hevent, hturns⟩
  · rw [hsame] at htracked hlatest htimed ⊢
    refine ⟨htracked, hlatest, htimed, h.ordered, fun p hp => Nat.le_add_right_of_le (h.past p hp), fun t ht => ?_⟩
    rcases htimers t ht with ht | ⟨item, rfl, -⟩
    · exact h.timers t ht
    · have hlog : a.course.log ++ [_] = a.course.log := congrArg (·.log) hsame
      simp at hlog
  · refine ⟨htracked, hlatest, htimed, ?_, ?_, ?_⟩
    · rw [hlog, List.map_append]
      refine List.pairwise_append.2 ⟨h.ordered, List.pairwise_singleton _ _, ?_⟩
      intro time hin later hlast
      obtain ⟨p, hp, rfl⟩ := List.mem_map.1 hin
      rw [List.map_singleton, List.mem_singleton] at hlast
      exact hlast ▸ htime ▸ Nat.le_add_right_of_le (h.past p hp)
    · intro p hp
      rw [hlog] at hp
      rcases List.mem_append.1 hp with hp | hp
      · exact Nat.le_add_right_of_le (h.past p hp)
      · exact List.mem_singleton.1 hp ▸ Nat.le_of_eq htime
    · intro t ht
      rcases htimers t ht with ht | ⟨item, rfl, rfl⟩
      · exact h.timers_of_turns hturns hlog t ht
      · refine ⟨Nat.le_refl _, fun _ => ⟨a.course.log, o, [], item, hlog, hevent, ?_, List.forall_mem_nil _⟩⟩
        rw [htime, h.timed.wait]

/-- The agenda stays right, whatever happens. -/
theorem IsKept.step (h : a.IsKept timing) (pause : Nat) (event : Event α) : (a.step pause event).IsKept timing := by
  have hkept : IsKept timing { a with course := a.course.step (a.now + pause) event, now := a.now + pause } :=
    h.happen pause event fun t ht => Or.inl ht
  unfold Agenda.step
  cases event with
  | enqueue item =>
    simp only
    refine h.happen pause (.enqueue item) fun t ht => ?_
    rcases List.mem_append.1 ht with ht | ht
    · exact Or.inl ht
    · exact Or.inr ⟨item, rfl, List.mem_singleton.1 ht⟩
  | fire timer =>
    simp only
    split
    · exact h.happen pause (.fire timer) fun t ht => Or.inl (List.mem_filter.1 ht).1
    · exact h.wait pause
  | clear => exact hkept
  | cancel => exact hkept
  | beginFlush => exact hkept
  | endFlush => exact hkept
  | finish generation elapsed => exact hkept

/-- The agenda stays right, however it goes on. -/
theorem IsKept.run (h : a.IsKept timing) (events : List (Nat × Event α)) : (a.run events).IsKept timing := by
  induction events generalizing a with
  | nil => exact h
  | cons event events ih => exact ih (h.step event.1 event.2)

/-! ## What starts -/

variable {start : Start α}

/-- A step leaves the course as it is, or it is one of the course at the time of the agenda; a timer fires only if it was set
and its time has come. -/
theorem course_step_eq_or (a : Agenda α) (pause : Nat) (event : Event α) :
    (a.step pause event).course = a.course ∨ (a.step pause event).course = a.course.step (a.now + pause) event ∧
      ∀ timer, event = .fire timer → ∃ t ∈ a.timers, t.event = timer ∧ t.due ≤ a.now + pause := by
  cases event with
  | fire timer =>
    simp only [Agenda.step]
    split
    · rename_i hany
      obtain ⟨t, ht, hdue⟩ := List.any_eq_true.1 hany
      simp only [Bool.and_eq_true, beq_iff_eq, decide_eq_true_eq] at hdue
      refine Or.inr ⟨rfl, fun timer' heq => ?_⟩
      cases heq
      exact ⟨t, ht, hdue⟩
    · exact Or.inl rfl
  | enqueue item => exact Or.inr ⟨rfl, nofun⟩
  | clear => exact Or.inr ⟨rfl, nofun⟩
  | cancel => exact Or.inr ⟨rfl, nofun⟩
  | beginFlush => exact Or.inr ⟨rfl, nofun⟩
  | endFlush => exact Or.inr ⟨rfl, nofun⟩
  | finish generation elapsed => exact Or.inr ⟨rfl, nofun⟩

/-- An item starts by its timer: it is the last that came in, the timer has not been stopped since, and the item has waited as
long as it had to when it came in; nothing is under way, and the last execution that counted ended long enough ago. -/
def StartsByTimer (timing : Timing) (c : Course α) (o : Occurrence α) (start : Start α) : Prop :=
  (∃ timer, o.event = .fire timer) ∧
    (∃ earlier e between, c.log = earlier ++ e :: between ∧ e.event = .enqueue start.item ∧
      (∀ p ∈ between, p.stopsTimer = false) ∧ e.time + waitAfter timing earlier ≤ o.time) ∧
    c.tasks = [] ∧ ∀ done, c.scheduler.lastCompleted? = some done → done + timing.cooldown ≤ o.time

/-- An item starts by the second step of a flush, as nothing is under way. -/
def StartsByFlush (c : Course α) (o : Occurrence α) : Prop :=
  o.event = .endFlush ∧ c.log.countP (·.endsFlush) < c.log.countP (·.beginsFlush) ∧ c.tasks = []

/-- An item starts as an execution ends that has been superseded: it had begun when a flush took its second step, which started
nothing, and nothing has started or been dropped since. -/
def StartsAfterFlush (c : Course α) (o : Occurrence α) : Prop :=
  ∃ generation elapsed earlier f between, o.event = .finish generation elapsed ∧ generation ∈ c.superseded ∧
    c.log = earlier ++ f :: between ∧ (∃ task ∈ earlier.filterMap (·.started?), task.generation = generation) ∧
    f.event = .endFlush ∧ f.started? = none ∧ earlier.countP (·.endsFlush) < earlier.countP (·.beginsFlush) ∧
    ∀ p ∈ between, p.drops = false ∧ p.started? = none

/-- Where the timer is left alone nothing comes in. -/
theorem filterMap_enqueued?_eq_nil {log : List (Occurrence α)} (h : ∀ o ∈ log, o.stopsTimer = false) :
    log.filterMap (·.enqueued?) = [] := by
  rw [List.filterMap_eq_nil_iff]
  intro o ho
  have hstops := h o ho
  unfold Occurrence.stopsTimer at hstops
  unfold Occurrence.enqueued?
  split at hstops <;> simp_all

/-- What starts by a timer has waited long enough: nothing has come in since, so it is the item that the timer was set for. -/
theorem IsKept.startsByTimer (h : a.IsKept timing) (hwaiting : a.course.scheduler.pending? = some start.item)
    (hevent : o.event = .fire a.course.scheduler.timer) (hrunning : a.course.scheduler.running = false)
    (hcooling : a.course.scheduler.isCooling o.time = false) (hnow : a.now ≤ o.time)
    (hfires : ∃ t ∈ a.timers, t.event = a.course.scheduler.timer ∧ t.due ≤ o.time) :
    StartsByTimer timing a.course o start := by
  obtain ⟨t, ht, hcounts, hdue⟩ := hfires
  obtain ⟨earlier, e, between, item, hlog, he, htime, hquiet⟩ := (h.timers t ht).2 hcounts
  have hlatest := latest?_of_waiting? (h.latest.pending.symm.trans hwaiting)
  have hnothing := filterMap_enqueued?_eq_nil hquiet
  have hcame : e.enqueued? = some item := by rw [Occurrence.enqueued?, he]
  have hitem : item = start.item := by simpa [latest?, hlog, hnothing, hcame] using hlatest
  refine ⟨⟨_, hevent⟩, ⟨earlier, e, between, hlog, hitem ▸ he, hquiet, htime ▸ hdue⟩, ?_, ?_⟩
  · exact Tracks.tasks_eq_nil h.tracked (by simp [hrunning])
  · intro done hdone
    have hmem : done ∈ (completions a.course.log).map (·.time) := by
      rw [h.timed.completed, Option.map_eq_some_iff] at hdone
      obtain ⟨last, hlast, rfl⟩ := hdone
      exact List.mem_map_of_mem (List.mem_of_getLast? hlast)
    obtain ⟨p, hp, rfl⟩ := List.mem_map.1 ((completions_sublist a.course.log).subset hmem)
    have hpast := h.past p hp
    simp only [isCooling, hdone, h.timed.fixed, decide_eq_false_iff_not] at hcooling
    omega

/-- What a flush starts is started by it at once. -/
theorem IsKept.startsByFlush (h : a.IsKept timing) (hturns : a.course.Turns o c') (hevent : o.event = .endFlush)
    (hrunning : a.course.scheduler.running = false) : StartsByFlush a.course o := by
  refine ⟨hevent, ?_, Tracks.tasks_eq_nil h.tracked (by simp [hrunning])⟩
  have hbefore := h.timed.flushes
  have hafter : c'.flushes + 1 = a.course.flushes := by
    simpa [Occurrence.endsFlush, Occurrence.beginsFlush, hevent] using hturns.flushes
  omega

/-- What is started when a superseded task ends is started for a flush. -/
theorem IsKept.startsAfterFlush (h : a.IsKept timing) (hturns : a.course.Turns o c') {generation elapsed : Nat}
    (hevent : o.event = .finish generation elapsed) (hstale : generation ≠ a.course.scheduler.generation)
    (hrequested : a.course.scheduler.flushRequested = true) : StartsAfterFlush a.course o := by
  obtain ⟨task, htask, rfl⟩ := hturns.ended generation elapsed hevent
  obtain ⟨earlier, f, between, hlog, hf, hidle, hcount, hquiet⟩ := h.timed.requested hrequested
  refine ⟨_, elapsed, earlier, f, between, hevent, (h.timed.overtaken task htask).resolve_left hstale, hlog,
    ⟨task, ?_, rfl⟩, hf, hidle, hcount, hquiet⟩
  have hstarted := Tracks.started h.tracked task htask
  have hnothing : between.filterMap (·.started?) = [] := List.filterMap_eq_nil_iff.2 fun p hp => (hquiet p hp).2
  simpa [Course.starts, hlog, hnothing, hidle] using hstarted

/-- What starts has been waiting. -/
theorem pending?_of_started {pause : Nat} {event : Event α}
    (hlog : (a.course.step (a.now + pause) event).log = a.course.log ++ [o]) (hstarted : o.started? = some start) :
    a.course.scheduler.pending? = some start.item := by
  rcases a.course.step_eq_or (a.now + pause) event with hsame | ⟨p, hp, -, -, hmoves⟩
  · rw [hsame] at hlog
    simp at hlog
  · obtain rfl := List.singleton_inj.1 (List.append_cancel_left (hp.symm.trans hlog))
    exact (hmoves.started start hstarted).2.2

/-- At each step at most one thing happens, and what starts with it, starts by a timer or by a flush. -/
theorem IsKept.starts (h : a.IsKept timing) (pause : Nat) (event : Event α) :
    (a.step pause event).course.log = a.course.log ∨
      ∃ o, (a.step pause event).course.log = a.course.log ++ [o] ∧ o.time = a.now + pause ∧ o.event = event ∧
        ∀ start, o.started? = some start →
          StartsByTimer timing a.course o start ∨ StartsByFlush a.course o ∨ StartsAfterFlush a.course o := by
  rcases a.course_step_eq_or pause event with hsame | ⟨hcourse, hfires⟩
  · exact Or.inl (congrArg (·.log) hsame)
  · rw [hcourse]
    rcases a.course.step_turns (a.now + pause) event with hsame | ⟨o, hlog, htime, hevent, hturns⟩
    · exact Or.inl (congrArg (·.log) hsame)
    · refine Or.inr ⟨o, hlog, htime, hevent, fun start hstarted => ?_⟩
      rcases hturns.scheduler.begins start hstarted with ⟨hfire, hrunning, hcooling⟩ | ⟨hend, hrunning⟩ |
        ⟨generation, elapsed, hfinish, hstale, hrequested⟩
      · obtain ⟨t, ht, hcounts, hdue⟩ := hfires _ (hevent.symm.trans hfire)
        exact Or.inl (h.startsByTimer (pending?_of_started hlog hstarted) hfire hrunning hcooling
          (htime ▸ Nat.le_add_right _ _) ⟨t, ht, hcounts, htime ▸ hdue⟩)
      · exact Or.inr (Or.inl (h.startsByFlush hturns hend hrunning))
      · exact Or.inr (Or.inr (h.startsAfterFlush hturns hfinish hstale hrequested))

/-- The end of an execution that has been superseded changes no times. -/
theorem IsKept.times_of_superseded (h : a.IsKept timing) {pause generation elapsed : Nat}
    (hsuperseded : generation ∈ a.course.superseded) :
    (a.step pause (.finish generation elapsed)).course.scheduler.wait = a.course.scheduler.wait ∧
      (a.step pause (.finish generation elapsed)).course.scheduler.lastCompleted? = a.course.scheduler.lastCompleted? := by
  have hstale : generation ≠ a.course.scheduler.generation := Nat.ne_of_lt (h.tracked.overtaken generation hsuperseded).1
  rcases a.course.step_turns (a.now + pause) (.finish generation elapsed) with hsame | ⟨o, -, -, hevent, hturns⟩
  · exact ⟨congrArg (·.scheduler.wait) hsame, congrArg (·.scheduler.lastCompleted?) hsame⟩
  · refine hturns.scheduler.keeps fun elapsed' heq => ?_
    rw [hevent] at heq
    cases heq
    exact hstale rfl

end

/-- Whatever happens to a scheduler as time goes by, whatever its timing and however long its executions take: it waits for
quiet as long as at first or as after a slow execution, as the executions tell that have ended and counted, and remembers when
the latest of these ended; the end of one that has been superseded changes neither. What starts, starts by the timer of the last
item that came in, after the wait that was in force then, with no drop and no flush in between, with nothing under way, and not
before the cooldown is over; or it starts by a flush, at once or when the execution ends that the flush has superseded or found
superseded. -/
theorem punctual (timing : Timing) (events : List (Nat × Event α)) :
    let a := (ofTiming timing).run events
    let c := a.course
    (c.scheduler.wait = timing.baseWait ∨ c.scheduler.wait = timing.slowWait) ∧
    c.scheduler.wait = waitAfter timing c.log ∧
    c.scheduler.lastCompleted? = (completions c.log).getLast?.map (·.time) ∧
    ((completions c.log).map (·.time)).Pairwise (· ≤ ·) ∧
    (∀ pause generation elapsed, generation ∈ c.superseded →
      let s := (a.step pause (.finish generation elapsed)).course.scheduler
      s.wait = c.scheduler.wait ∧ s.lastCompleted? = c.scheduler.lastCompleted?) ∧
    ∀ pause event, (a.step pause event).course.log = c.log ∨
      ∃ o, (a.step pause event).course.log = c.log ++ [o] ∧ o.time = a.now + pause ∧ o.event = event ∧
        ∀ start, o.started? = some start →
          StartsByTimer timing c o start ∨ StartsByFlush c o ∨ StartsAfterFlush c o := by
  intro a c
  have h : a.IsKept timing := (isKept_ofTiming timing).run events
  refine ⟨?_, h.timed.wait, h.timed.completed, h.ordered.sublist (completions_sublist c.log), ?_, ?_⟩
  · rw [h.timed.wait]
    exact waitAfter_eq_or timing c.log
  · exact fun pause generation elapsed hsuperseded => h.times_of_superseded hsuperseded
  · exact fun pause event => h.starts pause event

/-- After a slow execution the next item waits longer; a flush supersedes its execution, whose end then starts a third item and
changes no times. -/
theorem punctual_slow :
    let calm := (ofTiming {} : Agenda String).run
      [(0, .enqueue "draft"), (1000, .fire 1), (9000, .finish 1 9000), (10, .enqueue "sketch")]
    let fired : Occurrence String := { time := 12510, event := .fire 2, started? := some ⟨"sketch", 2⟩ }
    let pressed := (ofTiming {} : Agenda String).run
      [(0, .enqueue "draft"), (1000, .fire 1), (9000, .finish 1 9000), (10, .enqueue "sketch"), (2500, .fire 2),
        (100, .enqueue "final"), (100, .beginFlush), (0, .endFlush)]
    let ended : Occurrence String := { time := 13210, event := .finish 2 700, started? := some ⟨"final", 4⟩ }
    calm.course.scheduler.wait = 2500 ∧ StartsByTimer {} calm.course fired ⟨"sketch", 2⟩ ∧
      StartsAfterFlush pressed.course ended ∧ (pressed.step 500 (.finish 2 700)).course.scheduler.wait = 2500 := by
  intro calm fired pressed ended
  have hcalm := punctual {} [(0, .enqueue "draft"), (1000, .fire 1), (9000, .finish 1 9000), (10, .enqueue "sketch")]
  have hpressed := punctual {} [(0, .enqueue "draft"), (1000, .fire 1), (9000, .finish 1 9000), (10, .enqueue "sketch"),
    (2500, .fire 2), (100, .enqueue "final"), (100, .beginFlush), (0, .endFlush)]
  obtain ⟨-, hwait, -, -, -, hcalm⟩ := hcalm
  obtain ⟨-, -, -, -, hkeeps, hpressed⟩ := hpressed
  refine ⟨hwait.trans (by decide), ?_, ?_, ?_⟩
  · obtain ⟨o, hlog, -, -, hstarts⟩ := (hcalm 2500 (.fire 2)).resolve_left (by decide)
    obtain rfl : o = fired := List.singleton_inj.1 (List.append_cancel_left (hlog.symm.trans (by decide)))
    obtain htimer | ⟨hend, -⟩ | ⟨_, _, _, _, _, hend, -⟩ := hstarts _ rfl
    · exact htimer
    · cases hend
    · cases hend
  · obtain ⟨o, hlog, -, -, hstarts⟩ := (hpressed 500 (.finish 2 700)).resolve_left (by decide)
    obtain rfl : o = ended := List.singleton_inj.1 (List.append_cancel_left (hlog.symm.trans (by decide)))
    obtain ⟨⟨_, hfire⟩, -⟩ | ⟨hend, -⟩ | hflush := hstarts _ rfl
    · cases hfire
    · cases hend
    · exact hflush
  · exact (hkeeps 500 2 700 (by decide)).1.trans (by decide)

end Agenda

end Whiteboard
