import Mathlib.Data.List.Nodup
import Whiteboard.Proofs.Schedule.Clock
import Whiteboard.Proofs.Schedule.Punctuality
import Whiteboard.Schedule.Timeline

/-!
# The agenda of a timeline

Main statement: whatever is done to a timeline, its scheduler goes the way of an agenda, and what it notes as started is what has
started there (`Timeline.exists_agenda`). So what holds on every agenda holds on every timeline.

What a clock holds is related to the agenda by one invariant (`Timeline.Follows`): its timers have been set there, and its
executions are what is under way. That time never falls behind what has happened is due to `Timeline.left`, which bounds what
can still happen without a new item.
-/

namespace Whiteboard

namespace Timeline

/-! ## What is done to a timeline -/

/-- Something that is done to a timeline. -/
inductive Deed where
  | enqueue (work : Work)
  | clear
  | cancel
  | flush
  | listen
  /-- Some time goes by. -/
  | sleep (ms : Nat)

/-- Something is done, and whatever is to happen at once happens. -/
def act (t : Timeline) : Deed → Timeline
  | .enqueue work => (t.enqueue work).settle
  | .clear => t.clear.2.settle
  | .cancel => t.cancel.settle
  | .flush => t.flush.2.settle
  | .listen => t.listen.settle
  | .sleep ms => t.sleep ms

/-- The execution that begins. -/
def Event.begun? : Event → Option (Start Work)
  | .begin start => some start
  | _ => none

/-- The execution that begins or ends. -/
def Event.start? : Event → Option (Start Work)
  | .timer _ => none
  | .begin start => some start
  | .finish start _ => some start

/-- The number of the timer that fires. -/
def Event.timer? : Event → Option Nat
  | .timer number => some number
  | _ => none

/-- The execution that has begun. -/
def Note.start? : Note → Option (Start Work)
  | .started work _ generation _ => some ⟨work, generation⟩
  | _ => none

/-- The executions that a clock holds. -/
def executions (clock : Clock Event) : List (Start Work) := clock.events.filterMap Event.start?

/-- Those of them that have not begun. -/
def begins (clock : Clock Event) : List (Start Work) := clock.events.filterMap Event.begun?

/-- The numbers of the timers that a clock holds. -/
def numbers (clock : Clock Event) : List Nat := clock.events.filterMap Event.timer?

/-- The timers of a clock have been set on an agenda, for no later time, and nothing that it holds lies behind. -/
structure IsSetFor (clock : Clock Event) (a : Agenda Work) : Prop where
  now : a.now ≤ clock.now
  ahead : ∀ alarm ∈ clock.alarms, clock.now ≤ alarm.due ∧ alarm.event.begun? = none
  distinct : (numbers clock).Nodup
  timers : clock.AllAt fun event time => ∀ number ∈ event.timer?, ∃ x ∈ a.timers, x.event = number ∧ x.due ≤ time

/-- A timeline goes the way of an agenda: they have the same scheduler, what is under way are the executions that the clock
holds, and what has started has been noted or is to begin. -/
structure Follows (timing : Timing) (t : Timeline) (a : Agenda Work) : Prop where
  kept : a.IsKept timing
  scheduler : t.scheduler = a.course.scheduler
  clock : IsSetFor t.clock a
  underWay : (executions t.clock).Perm a.course.tasks
  noted : (t.notes.filterMap Note.start? ++ begins t.clock).Perm a.course.starts

/-- In the beginning a timeline goes the way of its agenda. -/
theorem follows_ofTiming (timing : Timing) : (ofTiming timing).Follows timing (Agenda.ofTiming timing) :=
  ⟨Agenda.isKept_ofTiming timing, rfl,
    ⟨Nat.le_refl _, List.forall_mem_nil _, List.nodup_nil, List.forall_mem_nil _, List.forall_mem_nil _⟩, .refl _, .refl _⟩

/-- How many events there can be without a new item: each that is set, the end of each that is to begin, and the beginning and
the end of the one that waits. -/
def left (t : Timeline) : Nat :=
  t.clock.size + (begins t.clock).length + if t.scheduler.pending?.isSome then 2 else 0

/-! ## Timers -/

section

variable {clock clock' : Clock Event} {a a' : Agenda Work}

/-- The agenda goes on; the timers that have not fired stay set. -/
theorem IsSetFor.mono (h : IsSetFor clock a) (hnow : a'.now ≤ clock.now)
    (htimers : ∀ x ∈ a.timers, x.event ∈ numbers clock → x ∈ a'.timers) : IsSetFor clock a' := by
  have hkept : ∀ event ∈ clock.events, ∀ time,
      (∀ number ∈ event.timer?, ∃ x ∈ a.timers, x.event = number ∧ x.due ≤ time) →
        ∀ number ∈ event.timer?, ∃ x ∈ a'.timers, x.event = number ∧ x.due ≤ time := by
    intro event hevent time hset number hnumber
    obtain ⟨x, hx, rfl, hdue⟩ := hset number hnumber
    exact ⟨x, htimers x hx (List.mem_filterMap.2 ⟨event, hevent, hnumber⟩), rfl, hdue⟩
  refine ⟨hnow, h.ahead, h.distinct, fun e he => ?_, fun alarm halarm => ?_⟩
  · exact hkept e (List.mem_append_left _ he) _ (h.timers.ready e he)
  · exact hkept _ (List.mem_append_right _ (List.mem_map_of_mem halarm)) _ (h.timers.alarms alarm halarm)

/-- Executions are to begin. -/
theorem IsSetFor.postAll (h : IsSetFor clock a) (started : List (Start Work)) :
    IsSetFor (clock.postAll (started.map .begin)) a := by
  have hnumbers : (numbers (clock.postAll (started.map .begin))).Perm (numbers clock) := by
    have hperm := clock.filterMap_postAll Event.timer? (started.map .begin)
    have hnone : (started.map Event.begin).filterMap Event.timer? = [] := by simp [Event.timer?]
    rwa [hnone, List.append_nil] at hperm
  refine ⟨h.now, h.ahead, hnumbers.nodup_iff.2 h.distinct, fun e he => ?_, h.timers.alarms⟩
  rcases List.mem_append.1 he with he | he
  · exact h.timers.ready e he
  · obtain ⟨start, -, rfl⟩ := List.mem_map.1 he
    intro number hnumber
    cases hnumber

/-- An event is set that is no beginning; if it is a timer, then it has been set on the agenda. -/
theorem IsSetFor.setAlarm (h : IsSetFor clock a) {delay : Nat} {event : Event} (hbegun : event.begun? = none)
    (hnumbers : (numbers clock ++ event.timer?.toList).Nodup)
    (htimer : ∀ number ∈ event.timer?, ∃ x ∈ a.timers, x.event = number ∧ x.due ≤ clock.now + delay) :
    IsSetFor (clock.setAlarm delay event) a := by
  refine ⟨h.now, ?_, ?_, h.timers.ready, ?_⟩
  · intro alarm halarm
    rcases List.mem_append.1 halarm with halarm | halarm
    · exact h.ahead alarm halarm
    · exact List.mem_singleton.1 halarm ▸ ⟨Nat.le_add_right _ _, hbegun⟩
  · rwa [numbers, Clock.filterMap_setAlarm]
  · intro alarm halarm
    rcases List.mem_append.1 halarm with halarm | halarm
    · exact h.timers.alarms alarm halarm
    · exact List.mem_singleton.1 halarm ▸ htimer

/-- The next event happens; a timer among the others has another number. -/
theorem IsSetFor.next? (h : IsSetFor clock a) {limit? : Option Nat} {event : Event}
    (hnext : clock.next? limit? = some (event, clock')) :
    IsSetFor clock' a ∧ ∀ number ∈ event.timer?, number ∉ numbers clock' ∧
      ∃ x ∈ a.timers, x.event = number ∧ x.due ≤ clock'.now := by
  obtain ⟨hnow, hahead⟩ := Clock.now_le_of_next? (fun alarm halarm => (h.ahead alarm halarm).1) hnext
  obtain ⟨hevent, htimers⟩ := h.timers.next? (fun e time later hset hle number hnumber => by
    obtain ⟨x, hx, heq, hdue⟩ := hset number hnumber
    exact ⟨x, hx, heq, Nat.le_trans hdue hle⟩) hnext
  have hperm : (numbers clock).Perm (event.timer?.toList ++ numbers clock') := Clock.filterMap_of_next? _ hnext
  have hnodup := List.nodup_append.1 (hperm.nodup_iff.1 h.distinct)
  refine ⟨⟨Nat.le_trans h.now hnow, ?_, hnodup.2.1, htimers⟩,
    fun number hnumber => ⟨fun hmem => ?_, hevent number hnumber⟩⟩
  · exact fun alarm halarm => ⟨(hahead alarm halarm).2, (h.ahead alarm (hahead alarm halarm).1).2⟩
  · exact hnodup.2.2 number (by simpa using hnumber) number hmem rfl

end

/-! ## What is under way -/

section

variable {timing : Timing} {t : Timeline} {a a' : Agenda Work} {clock : Clock Event}
  {next : Option (Start Work) × Scheduler Work}

/-- Setting an alarm for something else begins nothing. -/
theorem begins_setAlarm (clock : Clock Event) (delay : Nat) {event : Event} (h : event.begun? = none) :
    begins (clock.setAlarm delay event) = begins clock := by
  rw [begins, Clock.filterMap_setAlarm, h, Option.toList_none, List.append_nil]
  rfl

/-- Executions that are posted are held by the clock. -/
theorem executions_postAll (clock : Clock Event) (started : List (Start Work)) :
    (executions (clock.postAll (started.map .begin))).Perm (executions clock ++ started) := by
  have h := clock.filterMap_postAll Event.start? (started.map .begin)
  simpa [executions, Event.start?, List.filterMap_map, Function.comp_def] using h

/-- Executions that are posted are to begin. -/
theorem begins_postAll (clock : Clock Event) (started : List (Start Work)) :
    (begins (clock.postAll (started.map .begin))).Perm (begins clock ++ started) := by
  have h := clock.filterMap_postAll Event.begun? (started.map .begin)
  simpa [begins, Event.begun?, List.filterMap_map, Function.comp_def] using h

/-- The next event takes its execution off the clock. -/
theorem executions_of_next? {clock clock' : Clock Event} {limit? : Option Nat} {event : Event}
    (h : clock.next? limit? = some (event, clock')) : (executions clock).Perm (event.start?.toList ++ executions clock') :=
  Clock.filterMap_of_next? _ h

/-- The next event takes what it begins off the clock. -/
theorem begins_of_next? {clock clock' : Clock Event} {limit? : Option Nat} {event : Event}
    (h : clock.next? limit? = some (event, clock')) : (begins clock).Perm (event.begun?.toList ++ begins clock') :=
  Clock.filterMap_of_next? _ h

/-- What starts is to begin at once. -/
theorem Follows.started (hkept : a.IsKept timing) (hscheduler : next.2 = a.course.scheduler) (hclock : IsSetFor t.clock a)
    (hexecutions : (executions t.clock ++ next.1.toList).Perm a.course.tasks)
    (hnoted : (t.notes.filterMap Note.start? ++ begins t.clock ++ next.1.toList).Perm a.course.starts) :
    (t.started next).Follows timing a := by
  refine ⟨hkept, hscheduler, hclock.postAll _, (executions_postAll _ _).trans hexecutions, ?_⟩
  refine List.Perm.trans ?_ hnoted
  rw [List.append_assoc]
  exact (begins_postAll _ _).append_left _

/-- An execution may start, and so no more is left. -/
theorem left_started (h : t.scheduler.MayStart next) : (t.started next).left ≤ t.left := by
  have hbegins := (begins_postAll t.clock next.1.toList).length_eq
  have hsize : (t.clock.postAll (next.1.toList.map .begin)).size = t.clock.size + next.1.toList.length := by
    simp [Clock.size, Clock.postAll]
    omega
  rw [List.length_append] at hbegins
  unfold left Timeline.started
  simp only [hbegins, hsize]
  rcases h with ⟨hnone, hpending⟩ | ⟨start, hsome, hpending, hnone⟩
  · simp [hnone, hpending]
  · simp [hsome, hpending, hnone]
    omega

/-- The next event leaves less. -/
theorem left_of_next? {limit? : Option Nat} {event : Event} (h : t.clock.next? limit? = some (event, clock)) :
    t.left = { t with clock }.left + 1 + event.begun?.toList.length := by
  have hsize := (Clock.perm_of_next? h).length_eq
  have hbegins := (begins_of_next? h).length_eq
  rw [List.length_cons] at hsize
  rw [List.length_append] at hbegins
  simp only [left, Clock.size_eq_length_events, hsize, hbegins]
  omega

/-- A timer fires. -/
theorem Follows.fire (h : t.Follows timing a) {limit? : Option Nat} {number : Nat}
    (hnext : t.clock.next? limit? = some (.timer number, clock)) :
    ∃ events, (Timeline.step (.timer number) { t with clock }).Follows timing (a.run events) ∧
      (Timeline.step (.timer number) { t with clock }).left < t.left := by
  obtain ⟨hclock, htimer⟩ := h.clock.next? hnext
  obtain ⟨hfresh, x, hx, hnumber, hdue⟩ := htimer number rfl
  obtain ⟨pause, hpause⟩ := Nat.exists_eq_add_of_le hclock.now
  have hfires : (a.timers.any fun x => x.event == number && x.due ≤ a.now + pause) = true := by
    rw [List.any_eq_true]
    exact ⟨x, hx, by simp [hnumber, ← hpause, hdue]⟩
  have hstep : a.step pause (.fire number) =
      { course := a.course.step (a.now + pause) (.fire number), now := a.now + pause,
        timers := a.timers.filter (·.event != number) } := by
    simp only [Agenda.step, hfires, if_true]
  refine ⟨[(pause, .fire number)], ?_, ?_⟩
  · have hkept := h.kept.step pause (.fire number)
    have hexecutions := executions_of_next? hnext
    have hbegins := begins_of_next? hnext
    have hscheduler : a.course.scheduler.fire (a.now + pause) number = t.scheduler.fire clock.now number := by
      rw [h.scheduler, hpause]
    change Timeline.Follows timing _ (a.step pause (.fire number))
    rw [hstep] at hkept ⊢
    refine Follows.started hkept ?_ (hclock.mono (Nat.le_of_eq hpause.symm) ?_) ?_ ?_
    · exact congrArg (·.2) hscheduler.symm
    · intro y hy hmem
      refine List.mem_filter.2 ⟨hy, bne_iff_ne.2 ?_⟩
      rintro rfl
      exact hfresh hmem
    · simp only [Course.step, Course.tasks_after, hscheduler]
      exact (hexecutions.symm.trans h.underWay).append_right _
    · simp only [Course.step, Course.starts_after, hscheduler]
      refine List.Perm.append_right _ (List.Perm.trans ?_ h.noted)
      exact hbegins.symm.append_left _
  · have hleft := left_of_next? hnext
    have hstarted : (Timeline.step (.timer number) { t with clock }).left ≤ { t with clock }.left :=
      left_started (t.scheduler.mayStart_fire clock.now number)
    omega

/-- The only execution under way ends, be it the one that ends now or the one that begins now and takes no time. -/
theorem Follows.finish (h : t.Follows timing a) {limit? : Option Nat} {event : Event} {start : Start Work}
    (hnext : t.clock.next? limit? = some (event, clock)) (hstart : event.start? = some start) {notes : List Note}
    (hnoted : (notes.filterMap Note.start? ++ begins clock).Perm a.course.starts) (began : Nat) :
    ∃ events, (Timeline.finish { t with clock, notes } start began).Follows timing (a.run events) ∧
      (Timeline.finish { t with clock, notes } start began).left < t.left := by
  obtain ⟨pause, hpause⟩ := Nat.exists_eq_add_of_le (h.clock.next? hnext).1.now
  have hexecutions := (executions_of_next? hnext).symm.trans h.underWay
  rw [hstart, Option.toList_some, List.singleton_append] at hexecutions
  have htasks : a.course.tasks = [start] := h.kept.tracked.tasks_eq_singleton (hexecutions.subset List.mem_cons_self)
  have hidle : executions clock = [] := by
    rw [htasks] at hexecutions
    simpa using hexecutions.length_eq
  have hcomplete : a.course.scheduler.complete (a.now + pause) start.generation (clock.now - began) =
      t.scheduler.complete clock.now start.generation (clock.now - began) := by
    rw [h.scheduler, hpause]
  refine ⟨[(pause, .finish start.generation (clock.now - began))], ?_, ?_⟩
  · have hkept := h.kept.step pause (.finish start.generation (clock.now - began))
    change Timeline.Follows timing _ (a.step pause (.finish start.generation (clock.now - began)))
    refine Follows.started hkept ?_ ?_ ?_ ?_
    · simp [Agenda.step, Course.step, htasks, hcomplete, Timeline.note]
    · exact (h.clock.next? hnext).1.mono (Nat.le_of_eq hpause.symm) fun x hx _ => hx
    · simp [Agenda.step, Course.step, htasks, hcomplete, Timeline.note, hidle]
    · simp only [Agenda.step, Course.step, htasks, List.any_cons, BEq.rfl, Bool.true_or, if_true, Course.starts_after,
        hcomplete, Timeline.note, List.filterMap_append, List.filterMap_cons, Note.start?, List.filterMap_nil, List.append_nil]
      exact hnoted.append_right _
  · have hleft := left_of_next? hnext
    have hstarted : (Timeline.finish { t with clock, notes } start began).left ≤ { t with clock }.left :=
      left_started (t.scheduler.mayStart_complete clock.now start.generation (clock.now - began))
    omega

/-- An execution begins. -/
theorem Follows.begin (h : t.Follows timing a) {limit? : Option Nat} {start : Start Work}
    (hnext : t.clock.next? limit? = some (.begin start, clock)) :
    ∃ events, (Timeline.step (.begin start) { t with clock }).Follows timing (a.run events) ∧
      (Timeline.step (.begin start) { t with clock }).left < t.left := by
  have hbegins := begins_of_next? hnext
  have hnoted : ((t.notes ++ [Note.started start.item clock.now start.generation
      (t.scheduler.isCurrent start.generation)]).filterMap Note.start? ++ begins clock).Perm a.course.starts := by
    refine List.Perm.trans ?_ h.noted
    rw [List.filterMap_append, List.append_assoc]
    exact hbegins.symm.append_left _
  simp only [Timeline.step, Timeline.begin, Timeline.note]
  split
  · exact h.finish hnext rfl hnoted clock.now
  · obtain ⟨hclock, -⟩ := h.clock.next? hnext
    refine ⟨[], ⟨h.kept, h.scheduler, ?_, ?_, ?_⟩, ?_⟩
    · refine hclock.setAlarm rfl (by simpa [Event.timer?] using hclock.distinct) ?_
      intro number hnumber
      cases hnumber
    · rw [executions, Clock.filterMap_setAlarm]
      exact List.perm_append_comm.trans ((executions_of_next? hnext).symm.trans h.underWay)
    · simp only [begins_setAlarm _ _ (rfl : (Event.finish start clock.now).begun? = none)]
      exact hnoted
    · have hleft := left_of_next? hnext
      simp only [left, begins_setAlarm _ _ (rfl : (Event.finish start clock.now).begun? = none),
        Clock.size_eq_length_events, Clock.events_setAlarm, List.length_append, List.length_singleton, Event.begun?,
        Option.toList_some] at hleft ⊢
      omega

/-- Whatever happens next happens on the agenda, too. -/
theorem Follows.step (h : t.Follows timing a) {limit? : Option Nat} {event : Event}
    (hnext : t.clock.next? limit? = some (event, clock)) :
    ∃ events, (Timeline.step event { t with clock }).Follows timing (a.run events) ∧
      (Timeline.step event { t with clock }).left < t.left := by
  cases event with
  | timer number => exact h.fire hnext
  | begin start => exact h.begin hnext
  | finish start began =>
    refine h.finish hnext rfl (List.Perm.trans ?_ h.noted) began
    exact (begins_of_next? hnext).symm.append_left _

/-- Everything happens up to a time if there are rounds enough, and all of it on the agenda, too. -/
theorem Follows.run (h : t.Follows timing a) (time : Nat) {rounds : Nat} (hrounds : t.left ≤ rounds) :
    ∃ events, (course.run (fun _ => false) (some time) rounds t).Follows timing (a.run events) ∧
      (course.run (fun _ => false) (some time) rounds t).clock.ready = [] ∧
      ∀ alarm ∈ (course.run (fun _ => false) (some time) rounds t).clock.alarms, time < alarm.due := by
  induction rounds generalizing t a with
  | zero =>
    have hsize : t.clock.ready.length + t.clock.alarms.length = 0 := by
      rw [left, Clock.size] at hrounds
      omega
    obtain ⟨hready, halarms⟩ := Nat.add_eq_zero_iff.1 hsize
    refine ⟨[], h, List.eq_nil_of_length_eq_zero hready, ?_⟩
    rw [Process.run, List.eq_nil_of_length_eq_zero halarms]
    exact List.forall_mem_nil _
  | succ rounds ih =>
    rw [Process.run, if_neg Bool.false_ne_true]
    cases hnext : (course.clock t).next? (some time) with
    | none =>
      obtain ⟨hready, halarms⟩ := Clock.next?_eq_none hnext
      exact ⟨[], h, hready, halarms⟩
    | some next =>
      obtain ⟨event, clock⟩ := next
      obtain ⟨events, hstep, hless⟩ := h.step hnext
      obtain ⟨later, hrun⟩ := ih hstep (Nat.le_of_lt_succ (Nat.lt_of_lt_of_le hless hrounds))
      refine ⟨events ++ later, ?_⟩
      rw [Agenda.run, List.foldl_append]
      exact hrun

/-- When the time has come nothing is ready any longer, and what is set is set for later. -/
theorem Follows.runUntil (h : t.Follows timing a) (time : Nat) {rounds : Nat} (hrounds : t.left ≤ rounds) :
    ∃ events, (course.runUntil time rounds t).Follows timing (a.run events) ∧
      (course.runUntil time rounds t).clock.ready = [] := by
  obtain ⟨events, hrun, hready, hlater⟩ := h.run time hrounds
  unfold Process.runUntil
  generalize course.run (fun _ => false) (some time) rounds t = t' at hrun hready hlater
  refine ⟨events, ⟨hrun.kept, hrun.scheduler, ⟨?_, ?_, hrun.clock.distinct, ?_, hrun.clock.timers.alarms⟩, hrun.underWay,
    hrun.noted⟩, hready⟩
  · exact Nat.le_trans hrun.clock.now (Nat.le_max_right _ _)
  · intro alarm halarm
    obtain ⟨hahead, hbegun⟩ := hrun.clock.ahead alarm halarm
    exact ⟨Nat.max_le.2 ⟨Nat.le_of_lt (hlater alarm halarm), hahead⟩, hbegun⟩
  · intro event hevent
    have hnone : event ∈ t'.clock.ready := hevent
    rw [hready] at hnone
    cases hnone

/-! ## What is done -/

/-- Where nothing is ready nothing is to begin. -/
theorem Follows.begins_eq_nil (h : t.Follows timing a) (hready : t.clock.ready = []) : begins t.clock = [] := by
  rw [begins, Clock.events, hready, List.nil_append, List.filterMap_eq_nil_iff]
  intro event hevent
  obtain ⟨alarm, halarm, rfl⟩ := List.mem_map.1 hevent
  exact (h.clock.ahead alarm halarm).2

/-- Where nothing is to begin there are rounds enough. -/
theorem left_le_rounds (h : begins t.clock = []) : t.left ≤ t.rounds := by
  rw [left, rounds, h]
  split <;> simp

/-- So there are where the item that waited has just started. -/
theorem left_started_le_rounds (h : begins t.clock = []) (hnext : t.scheduler.MayStart next) :
    (t.started next).left ≤ (t.started next).rounds := by
  have hbegins := (begins_postAll t.clock next.1.toList).length_eq
  rw [h, List.nil_append] at hbegins
  unfold left rounds Timeline.started
  simp only [hbegins]
  rcases hnext with ⟨hnone, -⟩ | ⟨start, hsome, -, hnone⟩
  · simp only [hnone, Option.toList_none, List.length_nil]
    split <;> omega
  · simp [hsome, hnone]

/-- A timer that the clock holds is not newer than the last one that was set. -/
theorem Follows.le_timer (h : t.Follows timing a) {number : Nat} (hnumber : number ∈ numbers t.clock) :
    number ≤ t.scheduler.timer := by
  obtain ⟨event, hevent, heq⟩ := List.mem_filterMap.1 hnumber
  have hset : ∃ x ∈ a.timers, x.event = number := by
    rcases List.mem_append.1 hevent with hevent | hevent
    · obtain ⟨x, hx, hx', -⟩ := h.clock.timers.ready event hevent number heq
      exact ⟨x, hx, hx'⟩
    · obtain ⟨alarm, halarm, rfl⟩ := List.mem_map.1 hevent
      obtain ⟨x, hx, hx', -⟩ := h.clock.timers.alarms alarm halarm number heq
      exact ⟨x, hx, hx'⟩
  obtain ⟨x, hx, rfl⟩ := hset
  exact h.scheduler ▸ (h.kept.timers x hx).1

/-- An item comes in, and its timer is set. -/
theorem Follows.enqueue (h : t.Follows timing a) (work : Work) :
    ∃ events, (t.enqueue work).Follows timing (a.run events) := by
  obtain ⟨pause, hpause⟩ := Nat.exists_eq_add_of_le h.clock.now
  have hkept := h.kept.step pause (.enqueue work)
  refine ⟨[(pause, .enqueue work)], ?_⟩
  change Timeline.Follows timing _ (a.step pause (.enqueue work))
  refine ⟨hkept, congrArg (·.enqueue work) h.scheduler, ?_, ?_, ?_⟩
  · have hset : IsSetFor t.clock (a.step pause (.enqueue work)) :=
      h.clock.mono (Nat.le_of_eq hpause.symm) fun x hx _ => List.mem_append_left _ hx
    refine hset.setAlarm rfl ?_ ?_
    · refine List.nodup_append.2 ⟨h.clock.distinct, List.nodup_singleton _, ?_⟩
      intro number hnumber new hnew
      rw [List.mem_singleton.1 hnew]
      exact Nat.ne_of_lt (Nat.lt_succ_of_le (h.le_timer hnumber))
    · rintro number hnumber
      cases hnumber
      refine ⟨_, List.mem_append_right _ (List.mem_singleton_self _), ?_, ?_⟩
      · rw [h.scheduler]
      · exact Nat.le_of_eq (by rw [hpause, h.scheduler])
  · simp only [Timeline.enqueue, executions, Clock.filterMap_setAlarm]
    simpa [Agenda.step, Course.step, Event.start?, executions] using h.underWay
  · simp only [Timeline.enqueue, begins_setAlarm _ _ (rfl : (Event.timer (t.scheduler.enqueue work).timer).begun? = none)]
    simpa [Agenda.step, Course.step] using h.noted

/-- Everyone is told; nothing has started by it. -/
theorem exists_tell (t : Timeline) :
    ∃ notes, t.tell = { t with notes } ∧ notes.filterMap Note.start? = t.notes.filterMap Note.start? := by
  unfold tell
  induction List.range t.listeners generalizing t with
  | nil => exact ⟨t.notes, rfl, rfl⟩
  | cons listener listeners ih =>
    obtain ⟨notes, heq, hnotes⟩ := ih (t.note (.told listener t.clock.now))
    refine ⟨notes, heq, ?_⟩
    rw [hnotes, Timeline.note, List.filterMap_append]
    simp [Note.start?]

/-- Something happens on the agenda that changes nothing but its scheduler. -/
theorem Follows.moved (h : t.Follows timing a) (hkept : a'.IsKept timing) (hnow : a'.now = t.clock.now)
    (htimers : a'.timers = a.timers) (htasks : a'.course.tasks = a.course.tasks) (hstarts : a'.course.starts = a.course.starts)
    {notes : List Note} (hnotes : notes.filterMap Note.start? = t.notes.filterMap Note.start?) :
    Timeline.Follows timing { t with scheduler := a'.course.scheduler, notes } a' := by
  refine ⟨hkept, rfl, h.clock.mono (Nat.le_of_eq hnow) (fun x hx _ => htimers ▸ hx), htasks ▸ h.underWay, ?_⟩
  simp only [hnotes, hstarts]
  exact h.noted

/-- Those who are told of a step of the scheduler, if it concerns them, make no difference. -/
theorem Follows.told (h : t.Follows timing a) (hkept : a'.IsKept timing) (hnow : a'.now = t.clock.now)
    (htimers : a'.timers = a.timers) (htasks : a'.course.tasks = a.course.tasks) (hstarts : a'.course.starts = a.course.starts)
    {scheduler : Scheduler Work} (hscheduler : a'.course.scheduler = scheduler) (superseded : Bool) :
    ∃ notes, (if superseded then { t with scheduler }.tell else { t with scheduler }) = { t with scheduler, notes } ∧
      Timeline.Follows timing { t with scheduler, notes } a' := by
  subst hscheduler
  cases superseded with
  | true =>
    obtain ⟨notes, htell, hnotes⟩ := exists_tell { t with scheduler := a'.course.scheduler }
    exact ⟨notes, htell, h.moved hkept hnow htimers htasks hstarts hnotes⟩
  | false => exact ⟨t.notes, rfl, h.moved hkept hnow htimers htasks hstarts rfl⟩

/-- Clearing follows an agenda. -/
theorem Follows.clear (h : t.Follows timing a) : ∃ events, t.clear.2.Follows timing (a.run events) := by
  obtain ⟨pause, hpause⟩ := Nat.exists_eq_add_of_le h.clock.now
  have hmoved := h.moved (h.kept.step pause .clear) hpause.symm rfl (by simp [Agenda.step, Course.step])
    (by simp [Agenda.step, Course.step]) rfl
  have hscheduler : (a.step pause .clear).course.scheduler = t.scheduler.clear.2 := congrArg (·.clear.2) h.scheduler.symm
  rw [hscheduler] at hmoved
  exact ⟨[(pause, .clear)], hmoved⟩

/-- Cancelling follows an agenda and leaves the clock. -/
theorem Follows.cancel (h : t.Follows timing a) :
    ∃ events, t.cancel.Follows timing (a.run events) ∧ t.cancel.clock = t.clock := by
  obtain ⟨pause, hpause⟩ := Nat.exists_eq_add_of_le h.clock.now
  obtain ⟨notes, htold, hmoved⟩ := h.told (h.kept.step pause .cancel) hpause.symm rfl (by simp [Agenda.step, Course.step])
    (by simp [Agenda.step, Course.step]) (congrArg (·.cancel.2) h.scheduler.symm) t.scheduler.cancel.1
  have hcancel : t.cancel = { t with scheduler := t.scheduler.cancel.2, notes } := htold
  rw [hcancel]
  exact ⟨[(pause, .cancel)], hmoved, rfl⟩

/-- A flush that has taken its first step takes its second. -/
theorem Follows.endFlush (h : t.Follows timing a) (hnow : a.now = t.clock.now) (hflushes : a.course.flushes ≠ 0) :
    (t.started t.scheduler.endFlush).Follows timing (a.step 0 .endFlush) := by
  have hkept := h.kept.step 0 .endFlush
  refine Follows.started hkept ?_ (h.clock.mono (Nat.le_of_eq hnow) fun x hx _ => hx) ?_ ?_
  · simp [Agenda.step, Course.step, hflushes, h.scheduler]
  · simp only [Agenda.step, Course.step, hflushes, if_false, Course.tasks_after, h.scheduler]
    exact h.underWay.append_right _
  · simp only [Agenda.step, Course.step, hflushes, if_false, Course.starts_after, h.scheduler]
    exact h.noted.append_right _

/-- A flush takes both its steps, and those are told whom the first concerns. -/
theorem Follows.flush (h : t.Follows timing a) (hready : t.clock.ready = []) :
    ∃ events, t.flush.2.Follows timing (a.run events) ∧ t.flush.2.left ≤ t.flush.2.rounds := by
  have hnone := h.begins_eq_nil hready
  cases hbegun : t.scheduler.beginFlush with
  | none =>
    have hflush : t.flush.2 = t := by rw [Timeline.flush, hbegun]
    rw [hflush]
    exact ⟨[], h, left_le_rounds hnone⟩
  | some begun =>
    obtain ⟨superseded, scheduler⟩ := begun
    obtain ⟨pause, hpause⟩ := Nat.exists_eq_add_of_le h.clock.now
    have hstep : a.course.step (a.now + pause) .beginFlush = { a.course with flushes := a.course.flushes + 1 }.after
        { time := a.now + pause, event := .beginFlush, answer := true,
          superseded? := a.course.scheduler.superseded? superseded } scheduler := by
      rw [h.scheduler] at hbegun
      simp only [Course.step, hbegun]
    have hscheduler : (a.step pause .beginFlush).course.scheduler = scheduler := by simp [Agenda.step, hstep]
    obtain ⟨notes, htold, hmoved⟩ := h.told (h.kept.step pause .beginFlush) hpause.symm rfl
      (by simp [Agenda.step, hstep, Course.after]) (by simp [Agenda.step, hstep, Course.starts, Course.after])
      hscheduler superseded
    have hflush : t.flush.2 = Timeline.started { t with scheduler, notes } scheduler.endFlush := by
      simp only [Timeline.flush, hbegun, htold]
    rw [hflush]
    refine ⟨[(pause, .beginFlush), (0, .endFlush)], hmoved.endFlush hpause.symm ?_, ?_⟩
    · simp [Agenda.step, hstep, Course.after]
    · have hnone : begins { t with scheduler, notes }.clock = [] := hnone
      exact left_started_le_rounds hnone scheduler.mayStart_endFlush

/-- What follows on what has been done happens on the agenda after it. -/
theorem Follows.settle {events : List (Nat × Scheduler.Event Work)} (h : t.Follows timing (a.run events))
    (hleft : t.left ≤ t.rounds) :
    ∃ events, t.settle.Follows timing (a.run events) ∧ t.settle.clock.ready = [] := by
  obtain ⟨later, hrun, hready⟩ := h.runUntil t.clock.now hleft
  refine ⟨events ++ later, ?_, hready⟩
  rw [Agenda.run, List.foldl_append]
  exact hrun

/-- Whatever is done to a timeline on which nothing is ready to happen, it goes the way of an agenda until nothing is ready
again. -/
theorem Follows.act (h : t.Follows timing a) (hready : t.clock.ready = []) (deed : Deed) :
    ∃ events, (t.act deed).Follows timing (a.run events) ∧ (t.act deed).clock.ready = [] := by
  have hnone := h.begins_eq_nil hready
  have hleft := left_le_rounds hnone
  cases deed with
  | enqueue work =>
    obtain ⟨events, henqueued⟩ := h.enqueue work
    refine henqueued.settle (left_le_rounds ?_)
    rw [Timeline.enqueue, begins_setAlarm _ _ rfl, hnone]
  | clear =>
    obtain ⟨events, hcleared⟩ := h.clear
    exact hcleared.settle (left_le_rounds hnone)
  | cancel =>
    obtain ⟨events, hcancelled, hclock⟩ := h.cancel
    exact hcancelled.settle (left_le_rounds (hclock ▸ hnone))
  | flush =>
    obtain ⟨events, hflushed, hleft⟩ := h.flush hready
    exact hflushed.settle hleft
  | listen =>
    have hlistened : t.listen.Follows timing (a.run []) := ⟨h.kept, h.scheduler, h.clock, h.underWay, h.noted⟩
    exact hlistened.settle (left_le_rounds hnone)
  | sleep ms =>
    exact h.runUntil (t.clock.now + ms) hleft

end

/-- Whatever is done to a timeline, its scheduler has gone the way of an agenda, and it has noted what has started there; what
is ready to happen has happened. -/
theorem exists_agenda (timing : Timing) (deeds : List Deed) :
    let t := deeds.foldl act (ofTiming timing)
    t.clock.ready = [] ∧ ∃ events, let a := (Agenda.ofTiming timing).run events
      t.scheduler = a.course.scheduler ∧ (t.notes.filterMap Note.start?).Perm a.course.starts := by
  have hfollows : ∃ events, (deeds.foldl act (ofTiming timing)).Follows timing ((Agenda.ofTiming timing).run events) ∧
      (deeds.foldl act (ofTiming timing)).clock.ready = [] := by
    induction deeds using List.reverseRecOn with
    | nil => exact ⟨[], follows_ofTiming timing, rfl⟩
    | append_singleton deeds deed ih =>
      obtain ⟨events, hfollows, hready⟩ := ih
      obtain ⟨later, hlater, hready'⟩ := hfollows.act hready deed
      refine ⟨events ++ later, ?_, by rwa [List.foldl_concat]⟩
      rw [List.foldl_append, Agenda.run, List.foldl_append]
      exact hlater
  obtain ⟨events, hfollows, hready⟩ := hfollows
  refine ⟨hready, events, hfollows.scheduler, ?_⟩
  have hnoted := hfollows.noted
  rwa [hfollows.begins_eq_nil hready, List.append_nil] at hnoted

end Timeline

end Whiteboard
