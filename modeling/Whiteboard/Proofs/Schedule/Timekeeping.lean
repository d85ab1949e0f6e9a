import Whiteboard.Proofs.Schedule.LatestWins

/-!
# The times that a scheduler keeps

How long the next item waits and when the last execution ended that counted can be read off what has happened: from the
executions that have ended without having been superseded (`Scheduler.completions`). So can the flushes that have not taken
their second step, and the one that a scheduler has put off.

`Scheduler.Turns` says what each step of a scheduler does to all of this and when it lets an item start, and only there the
steps are looked at one by one. `Course.IsTimed` is what follows for whole courses.
-/

namespace Whiteboard

namespace Timing

variable (t : Timing)

/-- The next wait is the usual one, the slow one or the present one. -/
theorem nextWait_eq_or (current elapsed : Nat) :
    t.nextWait current elapsed = t.baseWait ∨ t.nextWait current elapsed = t.slowWait ∨
      t.nextWait current elapsed = current := by
  unfold nextWait
  split
  · exact Or.inr (Or.inl rfl)
  · split
    · exact Or.inl rfl
    · exact Or.inr (Or.inr rfl)

end Timing

namespace Scheduler

/-- An execution that counted until it ended. -/
structure Completion where
  time : Nat
  elapsed : Nat
  deriving DecidableEq, Repr

namespace Occurrence

/-- The execution that has ended, unless its tag is one of those that have ceased to count. -/
def completion? (superseded : List Nat) (o : Occurrence α) : Option Completion :=
  match o.event with
  | .finish generation elapsed => if generation ∈ superseded then none else some ⟨o.time, elapsed⟩
  | _ => none

/-- The timer that was set counts no longer: another item has come in, or what waited has been dropped or is to start. -/
def stopsTimer (o : Occurrence α) : Bool :=
  match o.event with
  | .enqueue _ | .clear | .cancel => true
  | .beginFlush => o.answer
  | _ => false

/-- A flush has found an item and taken its first step. -/
def beginsFlush (o : Occurrence α) : Bool :=
  match o.event with
  | .beginFlush => o.answer
  | _ => false

/-- A flush has taken its second step. -/
def endsFlush (o : Occurrence α) : Bool :=
  match o.event with
  | .endFlush => true
  | _ => false

end Occurrence

/-- The executions that have ended and counted, where the given ones have ceased to count before. -/
def completionsFrom (superseded : List Nat) : List (Occurrence α) → List Completion
  | [] => []
  | o :: log => (o.completion? superseded).toList ++ completionsFrom (superseded ++ o.superseded?.toList) log

/-- The executions that have ended and counted, in order. -/
def completions (log : List (Occurrence α)) : List Completion := completionsFrom [] log

/-- How long an item waits for quiet after all that has happened. -/
def waitAfter (timing : Timing) (log : List (Occurrence α)) : Nat :=
  (completions log).foldl (fun wait done => timing.nextWait wait done.elapsed) timing.baseWait

theorem completionsFrom_concat (superseded : List Nat) (log : List (Occurrence α)) (o : Occurrence α) :
    completionsFrom superseded (log ++ [o]) =
      completionsFrom superseded log ++ (o.completion? (superseded ++ log.filterMap (·.superseded?))).toList := by
  induction log generalizing superseded with
  | nil => simp [completionsFrom]
  | cons p log ih =>
    rw [List.cons_append, completionsFrom, completionsFrom, ih, List.append_assoc, List.append_assoc, List.filterMap_cons]
    cases p.superseded? <;> rfl

theorem completions_concat (log : List (Occurrence α)) (o : Occurrence α) :
    completions (log ++ [o]) = completions log ++ (o.completion? (log.filterMap (·.superseded?))).toList :=
  completionsFrom_concat [] log o

/-- The wait after a log with a last occurrence is adapted to it if it is a completion. -/
theorem waitAfter_concat (timing : Timing) (log : List (Occurrence α)) (o : Occurrence α) :
    waitAfter timing (log ++ [o]) = (o.completion? (log.filterMap (·.superseded?))).elim (waitAfter timing log)
      fun done => timing.nextWait (waitAfter timing log) done.elapsed := by
  rw [waitAfter, completions_concat, List.foldl_append]
  cases o.completion? (log.filterMap (·.superseded?)) <;> rfl

/-- The last completion of a log with a last occurrence is this one, if it is a completion. -/
theorem getLast?_completions_concat (log : List (Occurrence α)) (o : Occurrence α) :
    (completions (log ++ [o])).getLast? = (o.completion? (log.filterMap (·.superseded?))).or (completions log).getLast? := by
  rw [completions_concat]
  cases o.completion? (log.filterMap (·.superseded?)) <;> simp

/-- Only an end of a task is a completion. -/
theorem Occurrence.completion?_eq_none {superseded : List Nat} {o : Occurrence α}
    (h : ∀ generation elapsed, o.event ≠ .finish generation elapsed) : o.completion? superseded = none := by
  unfold completion?
  split
  · rename_i heq
    exact absurd heq (h _ _)
  · rfl

/-- A completion has the time of its occurrence. -/
theorem Occurrence.time_completion? {superseded : List Nat} {o : Occurrence α} {done : Completion}
    (h : o.completion? superseded = some done) : done.time = o.time := by
  unfold completion? at h
  split at h
  · split at h
    · cases h
    · cases h
      rfl
  · cases h

/-- Executions end when the log says that they do. -/
theorem completions_sublist (log : List (Occurrence α)) :
    ((completions log).map (·.time)).Sublist (log.map (·.time)) := by
  induction log using List.reverseRecOn with
  | nil => exact List.Sublist.slnil
  | append_singleton log o ih =>
    rw [completions_concat, List.map_append, List.map_append]
    refine ih.append ?_
    cases hdone : o.completion? (log.filterMap (·.superseded?)) with
    | none => exact List.nil_sublist _
    | some done => simp [Occurrence.time_completion? hdone]

/-- There are only two waits. -/
theorem waitAfter_eq_or (timing : Timing) (log : List (Occurrence α)) :
    waitAfter timing log = timing.baseWait ∨ waitAfter timing log = timing.slowWait := by
  unfold waitAfter
  induction completions log using List.reverseRecOn with
  | nil => exact Or.inl rfl
  | append_singleton dones done ih =>
    rw [List.foldl_append, List.foldl_cons, List.foldl_nil]
    rcases timing.nextWait_eq_or (dones.foldl (fun wait done => timing.nextWait wait done.elapsed) timing.baseWait)
      done.elapsed with h | h | h
    · exact Or.inl h
    · exact Or.inr h
    · rwa [h]

/-! ## What a step does -/

/-- An occurrence makes the times what they should be, and lets an item start only when it may. -/
structure Turns (s : Scheduler α) (o : Occurrence α) (s' : Scheduler α) : Prop where
  timing : s'.timing = s.timing
  timer : s'.timer = if o.stopsTimer then s.timer + 1 else s.timer
  counts : ∀ elapsed, o.event = .finish s.generation elapsed →
    s'.wait = s.timing.nextWait s.wait elapsed ∧ s'.lastCompleted? = some o.time
  keeps : (∀ elapsed, o.event ≠ .finish s.generation elapsed) →
    s'.wait = s.wait ∧ s'.lastCompleted? = s.lastCompleted?
  requested : s'.flushRequested = true → o.started? = none ∧
    (o.event = .endFlush ∨ s.flushRequested = true ∧ o.drops = false)
  tagged : ∀ start, o.started? = some start → start.generation = s'.generation
  passed : o.started? = none → s'.generation = s.generation ∨ o.superseded? = some s.generation
  begins : ∀ start, o.started? = some start →
    (o.event = .fire s.timer ∧ s.running = false ∧ s.isCooling o.time = false) ∨
    (o.event = .endFlush ∧ s.running = false) ∨
    ∃ generation elapsed, o.event = .finish generation elapsed ∧ generation ≠ s.generation ∧ s.flushRequested = true

/-- The same timer counts, and the waits and the end that is remembered are the same. -/
structure SameTimes (s s' : Scheduler α) : Prop where
  timing : s'.timing = s.timing
  timer : s'.timer = s.timer
  wait : s'.wait = s.wait
  lastCompleted : s'.lastCompleted? = s.lastCompleted?

theorem SameTimes.refl (s : Scheduler α) : s.SameTimes s := ⟨rfl, rfl, rfl, rfl⟩

section

variable {s s₀ s' : Scheduler α} {o : Occurrence α}

theorem sameTimes_supersede (s : Scheduler α) : s.SameTimes s.supersede.2 := by
  unfold supersede
  split <;> exact ⟨rfl, rfl, rfl, rfl⟩

theorem flushRequested_supersede (s : Scheduler α) : s.supersede.2.flushRequested = s.flushRequested := by
  unfold supersede
  split <;> rfl

/-- The tag is passed over if and only if an execution ceases to count by it. -/
theorem generation_supersede (s : Scheduler α) :
    s.supersede.2.generation = s.generation ∨ s.superseded? s.supersede.1 = some s.generation := by
  unfold supersede
  split
  · exact Or.inr rfl
  · exact Or.inl rfl

/-- An occurrence in which nothing starts and no execution ends that counts. -/
theorem Turns.of_idle (hstarted : o.started? = none) (hends : ∀ elapsed, o.event ≠ .finish s.generation elapsed)
    (htimes : SameTimes (if o.stopsTimer then s.stopTimer else s) s')
    (hrequested : s'.flushRequested = true → s.flushRequested = true ∧ o.drops = false)
    (hpassed : s'.generation = s.generation ∨ o.superseded? = some s.generation) : s.Turns o s' := by
  have hnone : ∀ start, o.started? ≠ some start := by simp [hstarted]
  obtain ⟨htiming, htimer, hwait, hcompleted⟩ := htimes
  refine ⟨?_, ?_, fun elapsed h => absurd h (hends elapsed), fun _ => ⟨?_, ?_⟩,
    fun h => ⟨hstarted, Or.inr (hrequested h)⟩, fun start h => absurd h (hnone start), fun _ => hpassed,
    fun start h => absurd h (hnone start)⟩
  · rw [htiming]
    split <;> rfl
  · rw [htimer]
    split <;> rfl
  · rw [hwait]
    split <;> rfl
  · rw [hcompleted]
    split <;> rfl

/-- An occurrence in which the item that waits starts, if there is one. -/
theorem Turns.of_start (hsame : s.SameTimes s₀) (hgeneration : s₀.generation = s.generation)
    (hrequested : s₀.flushRequested = s.flushRequested) (hstart : s₀.start = (o.started?, s'))
    (hends : ∀ elapsed, o.event ≠ .finish s.generation elapsed) (hstops : o.stopsTimer = false) (hdrops : o.drops = false)
    (hbegins : (o.event = .fire s.timer ∧ s.running = false ∧ s.isCooling o.time = false) ∨
      (o.event = .endFlush ∧ s.running = false) ∨
      ∃ generation elapsed, o.event = .finish generation elapsed ∧ generation ≠ s.generation ∧ s.flushRequested = true) :
    s.Turns o s' := by
  unfold start at hstart
  split at hstart
  · obtain ⟨hnone, rfl⟩ := Prod.mk.inj hstart
    refine .of_idle hnone.symm hends ?_ ?_ (Or.inl hgeneration)
    · rwa [hstops]
    · intro h
      exact ⟨hrequested ▸ h, hdrops⟩
  · rename_i item hitem
    obtain ⟨hsome, rfl⟩ := Prod.mk.inj hstart
    refine ⟨hsame.timing, ?_, fun elapsed h => absurd h (hends elapsed), fun _ => ⟨hsame.wait, hsame.lastCompleted⟩,
      fun h => ?_, fun start h => ?_, fun h => ?_, fun _ _ => hbegins⟩
    · rw [hstops]
      exact hsame.timer
    · cases h
    · rw [← hsome] at h
      cases h
      rfl
    · rw [← hsome] at h
      cases h

end

section

variable (s : Scheduler α) (now : Nat)

theorem turns_enqueue (item : α) : s.Turns { time := now, event := .enqueue item } (s.enqueue item) :=
  .of_idle rfl nofun ⟨rfl, rfl, rfl, rfl⟩ (fun h => ⟨h, rfl⟩) (Or.inl rfl)

theorem turns_clear : s.Turns { time := now, event := .clear, answer := s.clear.1 } s.clear.2 :=
  .of_idle rfl nofun ⟨rfl, rfl, rfl, rfl⟩ nofun (Or.inl rfl)

theorem turns_cancel :
    s.Turns { time := now, event := .cancel, superseded? := s.superseded? s.cancel.1 } s.cancel.2 := by
  refine .of_idle rfl nofun ?_ ?_ (generation_supersede s.clear.2)
  · obtain ⟨h1, h2, h3, h4⟩ := sameTimes_supersede s.clear.2
    exact ⟨h1, h2, h3, h4⟩
  · intro h
    have hcleared : s.cancel.2.flushRequested = false := flushRequested_supersede s.clear.2
    rw [hcleared] at h
    cases h

/-- A flush that finds nothing changes nothing, and one that finds an item stops the timer. -/
theorem turns_beginFlush {hit : Bool} {s' : Scheduler α} (h : s.beginFlush = some (hit, s')) :
    s.Turns { time := now, event := .beginFlush, answer := true, superseded? := s.superseded? hit } s' := by
  unfold beginFlush at h
  split at h
  · have hs := Option.some.inj h
    have hs' : s.stopTimer.supersede.2 = s' := by rw [hs]
    have hhit : s.stopTimer.supersede.1 = hit := by rw [hs]
    subst hs' hhit
    refine .of_idle rfl nofun (sameTimes_supersede s.stopTimer) ?_ (generation_supersede s.stopTimer)
    intro hrequested
    rw [flushRequested_supersede] at hrequested
    exact ⟨hrequested, rfl⟩
  · cases h

theorem turns_endFlush : s.Turns { time := now, event := .endFlush, started? := s.endFlush.1 } s.endFlush.2 := by
  unfold endFlush
  split
  · exact ⟨rfl, rfl, nofun, fun _ => ⟨rfl, rfl⟩, fun _ => ⟨rfl, Or.inl rfl⟩, nofun, fun _ => Or.inl rfl, nofun⟩
  · rename_i hrunning
    exact .of_start (.refl s) rfl rfl rfl nofun rfl rfl (Or.inr (Or.inl ⟨rfl, Bool.eq_false_iff.2 hrunning⟩))

theorem turns_fire (timer : Nat) :
    s.Turns { time := now, event := .fire timer, started? := (s.fire now timer).1 } (s.fire now timer).2 := by
  unfold fire
  split
  · rename_i hmay
    simp only [Bool.and_eq_true, decide_eq_true_eq, Bool.not_eq_true'] at hmay
    obtain ⟨⟨rfl, hrunning⟩, hcooling⟩ := hmay
    exact .of_start (.refl s) rfl rfl rfl nofun rfl rfl (Or.inl ⟨rfl, hrunning, hcooling⟩)
  · exact .of_idle rfl nofun (.refl s) (fun h => ⟨h, rfl⟩) (Or.inl rfl)

theorem turns_complete (generation elapsed : Nat) :
    s.Turns { time := now, event := .finish generation elapsed, started? := (s.complete now generation elapsed).1 }
      (s.complete now generation elapsed).2 := by
  unfold complete
  by_cases hcurrent : s.generation = generation
  · subst hcurrent
    simp only [if_true]
    refine ⟨rfl, rfl, fun elapsed' h => ?_, fun h => absurd rfl (h elapsed), fun h => ⟨rfl, Or.inr ⟨h, rfl⟩⟩, nofun,
      fun _ => Or.inl rfl, nofun⟩
    cases h
    exact ⟨rfl, rfl⟩
  · have hends : ∀ elapsed', Event.finish generation elapsed ≠ (.finish s.generation elapsed' : Event α) := by
      rintro elapsed' h
      cases h
      exact hcurrent rfl
    simp only [hcurrent, if_false]
    split
    · rename_i hrequested
      have hended : s.SameTimes { s with running := false } := ⟨rfl, rfl, rfl, rfl⟩
      exact .of_start hended rfl rfl rfl hends rfl rfl (Or.inr (Or.inr ⟨_, _, rfl, Ne.symm hcurrent, hrequested⟩))
    · exact .of_idle rfl hends ⟨rfl, rfl, rfl, rfl⟩ (fun h => ⟨h, rfl⟩) (Or.inl rfl)

end

/-- A flush has been put off: it has taken its second step without starting anything, and since then nothing has started or
been dropped. -/
def IsPutOff (log : List (Occurrence α)) : Prop :=
  ∃ earlier f between, log = earlier ++ f :: between ∧ f.event = .endFlush ∧ f.started? = none ∧
    earlier.countP (·.endsFlush) < earlier.countP (·.beginsFlush) ∧
    ∀ p ∈ between, p.drops = false ∧ p.started? = none

end Scheduler

namespace Course

open Scheduler

/-- An occurrence changes the scheduler as it should, and what is under way and the flushes with it. -/
structure Turns (c : Course α) (o : Occurrence α) (c' : Course α) : Prop where
  scheduler : c.scheduler.Turns o c'.scheduler
  flushes : c'.flushes + (if o.endsFlush then 1 else 0) = c.flushes + if o.beginsFlush then 1 else 0
  tasks : ∃ kept, kept ⊆ c.tasks ∧ c'.tasks = kept ++ o.started?.toList
  ended : ∀ generation elapsed, o.event = .finish generation elapsed → ∃ task ∈ c.tasks, task.generation = generation

/-- A step leaves the course as it is, if nothing of the kind can happen, or adds what has happened to the log. -/
theorem step_turns (c : Course α) (time : Nat) (event : Event α) :
    c.step time event = c ∨ ∃ o, (c.step time event).log = c.log ++ [o] ∧ o.time = time ∧ o.event = event ∧
      c.Turns o (c.step time event) := by
  have hall := List.Subset.refl c.tasks
  unfold step
  cases event with
  | enqueue item => exact Or.inr ⟨_, rfl, rfl, rfl, c.scheduler.turns_enqueue time item, rfl, ⟨_, hall, rfl⟩, nofun⟩
  | clear => exact Or.inr ⟨_, rfl, rfl, rfl, c.scheduler.turns_clear time, rfl, ⟨_, hall, rfl⟩, nofun⟩
  | cancel => exact Or.inr ⟨_, rfl, rfl, rfl, c.scheduler.turns_cancel time, rfl, ⟨_, hall, rfl⟩, nofun⟩
  | beginFlush =>
    simp only
    split
    · refine Or.inr ⟨_, rfl, rfl, rfl, ?_, rfl, ⟨_, hall, rfl⟩, nofun⟩
      exact .of_idle rfl nofun (.refl _) (fun h => ⟨h, rfl⟩) (Or.inl rfl)
    · rename_i hit s hbegun
      exact Or.inr ⟨_, rfl, rfl, rfl, c.scheduler.turns_beginFlush time hbegun, rfl, ⟨_, hall, rfl⟩, nofun⟩
  | endFlush =>
    simp only
    split
    · exact Or.inl rfl
    · rename_i hflushes
      exact Or.inr ⟨_, rfl, rfl, rfl, c.scheduler.turns_endFlush time, Nat.sub_add_cancel (Nat.pos_of_ne_zero hflushes),
        ⟨_, hall, rfl⟩, nofun⟩
  | fire timer => exact Or.inr ⟨_, rfl, rfl, rfl, c.scheduler.turns_fire time timer, rfl, ⟨_, hall, rfl⟩, nofun⟩
  | finish generation elapsed =>
    simp only
    split
    · rename_i hany
      obtain ⟨task, htask, htag⟩ := List.any_eq_true.1 hany
      refine Or.inr ⟨_, rfl, rfl, rfl, c.scheduler.turns_complete time generation elapsed, rfl,
        ⟨_, List.eraseP_subset, rfl⟩, ?_⟩
      intro generation' elapsed' h
      cases h
      exact ⟨task, htask, beq_iff_eq.1 htag⟩
    · exact Or.inl rfl

/-- The times, the tags under way and the flushes are those that the log tells. -/
structure IsTimed (timing : Timing) (c : Course α) : Prop where
  fixed : c.scheduler.timing = timing
  wait : c.scheduler.wait = waitAfter timing c.log
  completed : c.scheduler.lastCompleted? = (completions c.log).getLast?.map (·.time)
  overtaken : ∀ task ∈ c.tasks, task.generation = c.scheduler.generation ∨ task.generation ∈ c.superseded
  flushes : c.log.countP (·.endsFlush) + c.flushes = c.log.countP (·.beginsFlush)
  requested : c.scheduler.flushRequested = true → IsPutOff c.log

/-- In the beginning all times are as they should be. -/
theorem isTimed_ofTiming (timing : Timing) : (ofTiming timing : Course α).IsTimed timing :=
  ⟨rfl, rfl, rfl, List.forall_mem_nil _, rfl, nofun⟩

section

variable {timing : Timing} {c c' : Course α} {o : Occurrence α}

/-- An execution that ends has counted if it is the one with the latest tag, and has been superseded otherwise. -/
theorem IsTimed.completion?_eq (h : c.IsTimed timing) (htracked : c.IsTracked) (hturns : c.Turns o c') {elapsed : Nat}
    {generation : Nat} (hevent : o.event = .finish generation elapsed) :
    o.completion? c.superseded = if generation = c.scheduler.generation then some ⟨o.time, elapsed⟩ else none := by
  obtain ⟨task, htask, rfl⟩ := hturns.ended generation elapsed hevent
  unfold Occurrence.completion?
  rw [hevent]
  rcases h.overtaken task htask with hcurrent | hovertaken
  · have hnot : task.generation ∉ c.superseded := fun hmem =>
      absurd (htracked.overtaken _ hmem).1 (by rw [hcurrent]; exact Nat.lt_irrefl _)
    simp only [if_neg hnot, if_pos hcurrent]
  · have hne : task.generation ≠ c.scheduler.generation := Nat.ne_of_lt (htracked.overtaken _ hovertaken).1
    simp only [if_pos hovertaken, if_neg hne]

/-- An occurrence that does not end the task that counts is no completion. -/
theorem IsTimed.completion?_eq_none (h : c.IsTimed timing) (htracked : c.IsTracked) (hturns : c.Turns o c')
    (hends : ∀ elapsed, o.event ≠ .finish c.scheduler.generation elapsed) : o.completion? c.superseded = none := by
  by_cases hfinish : ∃ generation elapsed, o.event = .finish generation elapsed
  · obtain ⟨generation, elapsed, hevent⟩ := hfinish
    rw [h.completion?_eq htracked hturns hevent]
    refine if_neg ?_
    rintro rfl
    exact hends elapsed hevent
  · exact Occurrence.completion?_eq_none fun generation elapsed hevent => hfinish ⟨generation, elapsed, hevent⟩

/-- The waits and the end that is remembered follow the executions that have ended and counted. -/
theorem IsTimed.times (h : c.IsTimed timing) (htracked : c.IsTracked) (hturns : c.Turns o c') :
    c'.scheduler.wait = waitAfter timing (c.log ++ [o]) ∧
      c'.scheduler.lastCompleted? = (completions (c.log ++ [o])).getLast?.map (·.time) := by
  have hsuperseded : c.log.filterMap (·.superseded?) = c.superseded := rfl
  rw [waitAfter_concat, getLast?_completions_concat, hsuperseded]
  by_cases hcounts : ∃ elapsed, o.event = .finish c.scheduler.generation elapsed
  · obtain ⟨elapsed, hevent⟩ := hcounts
    obtain ⟨hwait, hcompleted⟩ := hturns.scheduler.counts elapsed hevent
    rw [h.completion?_eq htracked hturns hevent, if_pos rfl, hwait, hcompleted, h.fixed, h.wait]
    exact ⟨rfl, rfl⟩
  · have hends : ∀ elapsed, o.event ≠ .finish c.scheduler.generation elapsed := fun elapsed hevent =>
      hcounts ⟨elapsed, hevent⟩
    obtain ⟨hwait, hcompleted⟩ := hturns.scheduler.keeps hends
    rw [h.completion?_eq_none htracked hturns hends, hwait, hcompleted]
    exact ⟨h.wait, h.completed⟩

/-- What is under way holds the latest tag or has been superseded. -/
theorem IsTimed.overtaken_of_turns (h : c.IsTimed timing) (htracked' : c'.IsTracked) (hturns : c.Turns o c')
    (hlog : c'.log = c.log ++ [o]) :
    ∀ task ∈ c'.tasks, task.generation = c'.scheduler.generation ∨ task.generation ∈ c'.superseded := by
  obtain ⟨kept, hkept, htasks⟩ := hturns.tasks
  intro task htask
  cases hstarted : o.started? with
  | some start =>
    have hbegun : start ∈ c'.tasks := by simp [htasks, hstarted]
    rw [Tracks.tasks_eq_singleton htracked' hbegun, List.mem_singleton] at htask
    exact Or.inl (htask ▸ hturns.scheduler.tagged start hstarted)
  | none =>
    rw [htasks, hstarted, Option.toList_none, List.append_nil] at htask
    have hmem := hkept htask
    have hsuperseded : c'.superseded = c.superseded ++ o.superseded?.toList := by
      rw [superseded, hlog, List.filterMap_append]
      cases h : o.superseded? <;> simp [superseded, h]
    rw [hsuperseded, List.mem_append]
    rcases h.overtaken task hmem with hcurrent | hovertaken
    · rcases hturns.scheduler.passed hstarted with hsame | hpassed
      · exact Or.inl (hcurrent.trans hsame.symm)
      · exact Or.inr (Or.inr (by simp [hpassed, hcurrent]))
    · exact Or.inr (Or.inl hovertaken)

/-- The flushes that have begun and not ended are those that have not taken their second step. -/
theorem IsTimed.flushes_of_turns (h : c.IsTimed timing) (hturns : c.Turns o c') :
    (c.log ++ [o]).countP (·.endsFlush) + c'.flushes = (c.log ++ [o]).countP (·.beginsFlush) := by
  have hbefore := h.flushes
  have hafter := hturns.flushes
  rw [List.countP_append, List.countP_append, List.countP_singleton, List.countP_singleton]
  omega

/-- A flush that is awaited has been put off. -/
theorem IsTimed.requested_of_turns (h : c.IsTimed timing) (hturns : c.Turns o c')
    (hrequested : c'.scheduler.flushRequested = true) : IsPutOff (c.log ++ [o]) := by
  obtain ⟨hstarted, hends | ⟨hbefore, hdrops⟩⟩ := hturns.scheduler.requested hrequested
  · refine ⟨c.log, o, [], rfl, hends, hstarted, ?_, List.forall_mem_nil _⟩
    have hcount := h.flushes
    have hflushes : c'.flushes + 1 = c.flushes := by
      simpa [Occurrence.endsFlush, Occurrence.beginsFlush, hends] using hturns.flushes
    omega
  · obtain ⟨earlier, f, between, hlog, hf, hidle, hcount, hquiet⟩ := h.requested hbefore
    refine ⟨earlier, f, between ++ [o], by simp [hlog], hf, hidle, hcount, ?_⟩
    exact List.forall_mem_append.2 ⟨hquiet, List.forall_mem_singleton.2 ⟨hdrops, hstarted⟩⟩

/-- The times are kept, whatever happens. -/
theorem IsTimed.step (h : c.IsTimed timing) (htracked : c.IsTracked) (time : Nat) (event : Event α) :
    (c.step time event).IsTimed timing := by
  rcases c.step_turns time event with hsame | ⟨o, hlog, -, -, hturns⟩
  · rwa [hsame]
  · obtain ⟨hwait, hcompleted⟩ := h.times htracked hturns
    rw [← hlog] at hwait hcompleted
    exact ⟨hturns.scheduler.timing.trans h.fixed, hwait, hcompleted,
      h.overtaken_of_turns (htracked.step time event) hturns hlog, hlog ▸ h.flushes_of_turns hturns,
      hlog ▸ h.requested_of_turns hturns⟩

end

end Course

end Whiteboard
