import Whiteboard.Proofs.Schedule.Course

/-!
# One execution at a time

Main statement: on every course of a scheduler at most one execution is under way; the flags say whether there is one and
whether it counts; tags only rise, and every start and every supersession takes a new one (`Course.single_flight`). So an
execution that has been superseded never counts again.

The flags and counters are related to what is under way and what has happened by one invariant, `Scheduler.Tracks`. There is
one lemma for each step of the scheduler, and only `start` adds a task: it is taken when nothing is under way, after the
task that held the place has been struck off.
-/

namespace Whiteboard

namespace Scheduler

/-- The flags and counters of a scheduler are right about the tasks under way, the executions that have started and the tags
of those that have been superseded. -/
structure Tracks (s : Scheduler α) (tasks starts : List (Start α)) (superseded : List Nat) : Prop where
  single : tasks.length ≤ 1
  running : s.running = true ↔ tasks ≠ []
  inFlight : s.inFlight = true ↔ ∃ task ∈ tasks, task.generation = s.generation
  live : s.liveGeneration = s.generation
  started : ∀ task ∈ tasks, task ∈ starts
  increasing : starts.Pairwise fun a b => a.generation < b.generation
  le_generation : ∀ start ∈ starts, start.generation ≤ s.generation
  counted : s.generation = starts.length + superseded.length
  overtaken : ∀ tag ∈ superseded, tag < s.generation ∧ ∃ start ∈ starts, start.generation = tag

namespace Tracks

variable {s s' : Scheduler α} {task : Start α} {tasks starts : List (Start α)} {superseded : List Nat}

/-- In the beginning nothing is under way. -/
theorem ofTiming (timing : Timing) : Tracks (Scheduler.ofTiming timing : Scheduler α) [] [] [] := by
  refine ⟨?_, ?_, ?_, rfl, ?_, List.Pairwise.nil, ?_, rfl, ?_⟩ <;> simp [Scheduler.ofTiming]

/-- What waits, the timers and the waiting times do not matter. -/
theorem congr (h : Tracks s tasks starts superseded) (hgeneration : s'.generation = s.generation)
    (hlive : s'.liveGeneration = s.liveGeneration) (hinFlight : s'.inFlight = s.inFlight)
    (hrunning : s'.running = s.running) : Tracks s' tasks starts superseded := by
  obtain ⟨h1, h2, h3, h4, h5, h6, h7, h8, h9⟩ := h
  rw [← hgeneration] at h3 h4 h7 h8 h9
  rw [← hlive] at h4
  rw [← hinFlight] at h3
  rw [← hrunning] at h2
  exact ⟨h1, h2, h3, h4, h5, h6, h7, h8, h9⟩

/-- Nothing is under way while the scheduler is not running. -/
theorem tasks_eq_nil (h : Tracks s tasks starts superseded) (hrunning : ¬ s.running = true) : tasks = [] := by
  cases tasks with
  | nil => rfl
  | cons task tasks => exact absurd (h.running.2 (List.cons_ne_nil _ _)) hrunning

/-- The task under way is the only one. -/
theorem tasks_eq_singleton (h : Tracks s tasks starts superseded) (hmem : task ∈ tasks) : tasks = [task] := by
  have hsingle := h.single
  match tasks, hsingle, hmem with
  | [_], _, hmem => rw [List.mem_singleton.1 hmem]

/-- What is superseded goes on without counting: its tag has been passed over, so no task holds the new one. -/
theorem supersede (h : Tracks s tasks starts superseded) :
    Tracks s.supersede.2 tasks starts (superseded ++ (s.superseded? s.supersede.1).toList) := by
  unfold Scheduler.supersede Scheduler.superseded?
  by_cases hflight : s.inFlight = true
  · obtain ⟨task, htask, hgeneration⟩ := h.inFlight.1 hflight
    have hle : ∀ start ∈ starts, start.generation ≤ s.generation + 1 := by
      intro start hstart
      have := h.le_generation start hstart
      omega
    simp only [hflight, if_true, Option.toList_some]
    refine ⟨h.single, h.running, ?_, rfl, h.started, h.increasing, hle, ?_, ?_⟩
    · refine ⟨nofun, fun ⟨other, hother, heq⟩ => ?_⟩
      have := h.le_generation other (h.started other hother)
      simp only at heq
      omega
    · have := h.counted
      simp only [List.length_append, List.length_singleton]
      omega
    · intro tag htag
      rcases List.mem_append.1 htag with htag | htag
      · obtain ⟨hlt, hstart⟩ := h.overtaken tag htag
        exact ⟨Nat.lt_succ_of_lt hlt, hstart⟩
      · rw [List.mem_singleton.1 htag]
        exact ⟨Nat.lt_succ_self _, task, h.started task htask, hgeneration⟩
  · simp only [hflight, Bool.false_eq_true, if_false, Option.toList_none, List.append_nil]
    exact h

/-- What starts where nothing is under way is the only task. -/
theorem start (h : Tracks s [] starts superseded) :
    Tracks s.start.2 s.start.1.toList (starts ++ s.start.1.toList) superseded := by
  unfold Scheduler.start
  cases hpending : s.pending? with
  | none =>
    simp only [Option.toList_none, List.append_nil]
    exact h
  | some item =>
    simp only [Option.toList_some]
    refine ⟨Nat.le_refl _, by simp, by simp, rfl, by simp, ?_, ?_, ?_, ?_⟩
    · refine List.pairwise_append.2 ⟨h.increasing, List.pairwise_singleton _ _, ?_⟩
      intro start hstart new hnew
      rw [List.mem_singleton.1 hnew]
      exact Nat.lt_succ_of_le (h.le_generation start hstart)
    · intro start hstart
      rcases List.mem_append.1 hstart with hstart | hstart
      · exact Nat.le_succ_of_le (h.le_generation start hstart)
      · obtain rfl := List.mem_singleton.1 hstart
        exact Nat.le_refl _
    · have := h.counted
      simp only [List.length_append, List.length_singleton]
      omega
    · intro tag htag
      obtain ⟨hlt, start, hstart, heq⟩ := h.overtaken tag htag
      exact ⟨Nat.lt_succ_of_lt hlt, start, List.mem_append_left _ hstart, heq⟩

/-- A timer that fires starts a task only where none is under way. -/
theorem fire (h : Tracks s tasks starts superseded) (now timer : Nat) :
    Tracks (s.fire now timer).2 (tasks ++ (s.fire now timer).1.toList) (starts ++ (s.fire now timer).1.toList)
      superseded := by
  unfold Scheduler.fire
  split
  · rename_i hcond
    have hrunning : ¬ s.running = true := by
      simp only [Bool.and_eq_true, Bool.not_eq_true'] at hcond
      simp [hcond.1.2]
    have hnil := h.tasks_eq_nil hrunning
    subst hnil
    exact h.start
  · simp only [Option.toList_none, List.append_nil]
    exact h

/-- A flush that ends starts a task only where none is under way. -/
theorem endFlush (h : Tracks s tasks starts superseded) :
    Tracks s.endFlush.2 (tasks ++ s.endFlush.1.toList) (starts ++ s.endFlush.1.toList) superseded := by
  unfold Scheduler.endFlush
  by_cases hrunning : s.running = true
  · simp only [hrunning, if_true, Option.toList_none, List.append_nil]
    exact h.congr rfl rfl rfl hrunning.symm
  · have hnil := h.tasks_eq_nil hrunning
    subst hnil
    simp only [hrunning, Bool.false_eq_true, if_false]
    exact h.start

/-- Without its task the scheduler is idle, whatever else is noted at the end. -/
theorem idle (h : Tracks s tasks starts superseded) {s' : Scheduler α} (hrunning : s'.running = false)
    (hinFlight : s'.inFlight = false) (hgeneration : s'.generation = s.generation)
    (hlive : s'.liveGeneration = s.liveGeneration) : Tracks s' [] starts superseded := by
  refine ⟨Nat.zero_le _, by simp [hrunning], by simp [hinFlight], by rw [hlive, hgeneration, h.live], by simp,
    h.increasing, ?_, ?_, ?_⟩
  · rw [hgeneration]
    exact h.le_generation
  · rw [hgeneration]
    exact h.counted
  · rw [hgeneration]
    exact h.overtaken

/-- The task that ends leaves its place before another takes it, be it one that counts or one that has been superseded. -/
theorem complete (h : Tracks s [task] starts superseded) (now elapsed : Nat) :
    Tracks (s.complete now task.generation elapsed).2 (s.complete now task.generation elapsed).1.toList
      (starts ++ (s.complete now task.generation elapsed).1.toList) superseded := by
  have hidle : s.inFlight = false ∨ s.generation = task.generation := by
    by_cases hflight : s.inFlight = true
    · obtain ⟨other, hother, heq⟩ := h.inFlight.1 hflight
      rw [List.mem_singleton.1 hother] at heq
      exact Or.inr heq.symm
    · exact Or.inl (Bool.eq_false_iff.2 hflight)
  unfold Scheduler.complete
  by_cases hcurrent : s.generation = task.generation
  · simp only [hcurrent, if_true, Option.toList_none, List.append_nil]
    exact h.idle rfl rfl hcurrent.symm rfl
  · have hflight : s.inFlight = false := hidle.resolve_right hcurrent
    have hended : Tracks { s with running := false } [] starts superseded := h.idle rfl hflight rfl rfl
    simp only [hcurrent, if_false]
    split
    · exact hended.start
    · simp only [Option.toList_none, List.append_nil]
      exact hended

end Tracks

end Scheduler

namespace Course

open Scheduler (Tracks)

/-- A scheduler is right about its course. -/
def IsTracked (c : Course α) : Prop := Tracks c.scheduler c.tasks c.starts c.superseded

/-- An occurrence that is tracked leads to a course that is tracked. -/
theorem isTracked_after {c : Course α} {o : Scheduler.Occurrence α} {s : Scheduler α}
    (h : Tracks s (c.tasks ++ o.started?.toList) (c.starts ++ o.started?.toList)
      (c.superseded ++ o.superseded?.toList)) : (c.after o s).IsTracked := by
  rw [IsTracked, starts_after, superseded_after]
  exact h

/-- A step in which nothing is superseded. -/
theorem isTracked_after_start {c : Course α} {o : Scheduler.Occurrence α} {s : Scheduler α}
    (hsuperseded : o.superseded? = none) (h : Tracks s (c.tasks ++ o.started?.toList) (c.starts ++ o.started?.toList)
      c.superseded) : (c.after o s).IsTracked := by
  refine isTracked_after ?_
  rw [hsuperseded, Option.toList_none, List.append_nil]
  exact h

/-- A step in which nothing starts. -/
theorem isTracked_after_idle {c : Course α} {o : Scheduler.Occurrence α} {s : Scheduler α} (hstarted : o.started? = none)
    (h : Tracks s c.tasks c.starts (c.superseded ++ o.superseded?.toList)) : (c.after o s).IsTracked := by
  refine isTracked_after ?_
  rw [hstarted, Option.toList_none, List.append_nil, List.append_nil]
  exact h

/-- The scheduler stays right about its course, whatever happens. -/
theorem IsTracked.step {c : Course α} (h : c.IsTracked) (time : Nat) (event : Scheduler.Event α) :
    (c.step time event).IsTracked := by
  have hquiet : Tracks c.scheduler c.tasks c.starts (c.superseded ++ []) := by rwa [List.append_nil]
  unfold Course.step
  cases event with
  | enqueue item => exact isTracked_after_idle rfl (hquiet.congr rfl rfl rfl rfl)
  | clear => exact isTracked_after_idle rfl (hquiet.congr rfl rfl rfl rfl)
  | cancel =>
    have hclear : Tracks c.scheduler.clear.2 c.tasks c.starts c.superseded := Tracks.congr h rfl rfl rfl rfl
    exact isTracked_after_idle rfl hclear.supersede
  | beginFlush =>
    by_cases hpending : c.scheduler.pending?.isSome = true
    · have hstopped : Tracks c.scheduler.stopTimer c.tasks c.starts c.superseded := Tracks.congr h rfl rfl rfl rfl
      simp only [Scheduler.beginFlush, hpending, if_true]
      exact isTracked_after_idle rfl hstopped.supersede
    · simp only [Scheduler.beginFlush, hpending, Bool.false_eq_true, if_false]
      exact isTracked_after_idle rfl hquiet
  | endFlush =>
    by_cases hflushes : c.flushes = 0
    · simp only [hflushes, if_true]
      exact h
    · simp only [hflushes, if_false]
      exact isTracked_after_start rfl (Tracks.endFlush h)
  | fire timer => exact isTracked_after_start rfl (Tracks.fire h time timer)
  | finish generation elapsed =>
    by_cases htask : c.tasks.any (·.generation == generation) = true
    · obtain ⟨task, hmem, htag⟩ := List.any_eq_true.1 htask
      have hsingle := Tracks.tasks_eq_singleton h hmem
      have htag : task.generation = generation := beq_iff_eq.1 htag
      subst htag
      have hrest : c.tasks.eraseP (·.generation == task.generation) = [] := by simp [hsingle]
      have hone : Tracks c.scheduler [task] c.starts c.superseded := hsingle ▸ h
      simp only [htask, if_true, hrest]
      exact isTracked_after_start rfl (hone.complete time elapsed)
    · simp only [htask, Bool.false_eq_true, if_false]
      exact h

/-- The scheduler stays right about its course, however it goes on. -/
theorem IsTracked.run {c : Course α} (h : c.IsTracked) (events : List (Nat × Scheduler.Event α)) :
    (c.run events).IsTracked := by
  induction events generalizing c with
  | nil => exact h
  | cons event events ih => exact ih (h.step event.1 event.2)

/-- In the beginning the course is tracked. -/
theorem isTracked_ofTiming (timing : Timing) : (ofTiming timing : Course α).IsTracked := Tracks.ofTiming timing

/-- What has happened stays so. -/
theorem log_prefix_step (c : Course α) (time : Nat) (event : Scheduler.Event α) :
    c.log <+: (c.step time event).log := by
  unfold step
  split <;> (try split) <;> first | exact List.prefix_append _ _ | exact List.prefix_refl _

/-- The log only grows. -/
theorem log_prefix_run (c : Course α) (events : List (Nat × Scheduler.Event α)) : c.log <+: (c.run events).log := by
  induction events generalizing c with
  | nil => exact List.prefix_refl _
  | cons event events ih => exact (log_prefix_step c event.1 event.2).trans (ih _)

/-- On every course of a scheduler at most one task is under way, and one is if and only if the scheduler is running; the
execution in flight is the one whose tag is the generation, and executions compare their tags with that generation. The
tags of what starts only rise, and the generation counts the starts and the supersessions. What is superseded is an
execution that has started, and from then on it is not current, however the course goes on. -/
theorem single_flight (timing : Timing) (events : List (Nat × Scheduler.Event α)) :
    let c := (ofTiming timing).run events
    c.tasks.length ≤ 1 ∧
    (c.scheduler.running = true ↔ c.tasks ≠ []) ∧
    (c.scheduler.inFlight = true ↔ ∃ task ∈ c.tasks, task.generation = c.scheduler.generation) ∧
    c.scheduler.liveGeneration = c.scheduler.generation ∧
    c.starts.Pairwise (fun a b => a.generation < b.generation) ∧
    c.scheduler.generation = c.starts.length + c.superseded.length ∧
    ∀ tag ∈ c.superseded, (∃ start ∈ c.starts, start.generation = tag) ∧
      ∀ later, (c.run later).scheduler.isCurrent tag = false := by
  intro c
  have h : c.IsTracked := (isTracked_ofTiming timing).run events
  refine ⟨h.single, h.running, h.inFlight, h.live, h.increasing, h.counted, ?_⟩
  intro tag htag
  refine ⟨(h.overtaken tag htag).2, fun later => ?_⟩
  have hlater := h.run later
  have hmem : tag ∈ (c.run later).superseded := ((log_prefix_run c later).filterMap _).subset htag
  have hlt := (hlater.overtaken tag hmem).1
  rw [Scheduler.isCurrent, hlater.live, beq_eq_false_iff_ne]
  omega

/-- A flush supersedes an execution that is under way; a second flush falls between its two steps, and both wait for the
end of what is under way. -/
theorem single_flight_deferred :
    let c := (ofTiming {} : Course String).run
      [(0, .enqueue "draft"), (1000, .fire 1), (1200, .enqueue "sketch"), (1300, .beginFlush), (1310, .enqueue "final"),
        (1320, .beginFlush), (1330, .endFlush), (1340, .endFlush), (1500, .finish 1 500)]
    c.starts = [⟨"draft", 1⟩, ⟨"final", 3⟩] ∧ c.tasks = [⟨"final", 3⟩] ∧ c.superseded = [1] ∧ c.tasks.length ≤ 1 ∧
      ∀ later, (c.run later).scheduler.isCurrent 1 = false := by
  intro c
  have h := single_flight {} [(0, .enqueue "draft"), (1000, .fire 1), (1200, .enqueue "sketch"), (1300, .beginFlush),
    (1310, .enqueue "final"), (1320, .beginFlush), (1330, .endFlush), (1340, .endFlush), (1500, .finish 1 500)]
  exact ⟨by decide, by decide, by decide, h.1, (h.2.2.2.2.2.2 1 (by decide)).2⟩

end Course

end Whiteboard
