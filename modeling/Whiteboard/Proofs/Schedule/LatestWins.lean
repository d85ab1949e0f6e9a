import Mathlib.Data.List.Induction
import Whiteboard.Proofs.Schedule.SingleFlight

/-!
# The latest item wins

Main statement: on every course of a scheduler what starts is the last item that came in, unless it has been dropped or has
started since; so nothing starts twice, nothing out of order, and nothing that has been dropped. And a flush is honoured: what
waits starts at once, or as soon as the execution under way has ended, unless it is dropped before that (`Course.latest_wins`).

What a scheduler has waiting can be read off what has happened (`Scheduler.waiting?`), whichever of its steps have been taken:
`Scheduler.Moves` says what each of them does to it, and only there the steps are looked at one by one. A flush that has been
put off is a debt (`Scheduler.IsOwed`) that every step passes on until an execution ends.
-/

namespace Whiteboard

namespace Scheduler

namespace Occurrence

/-- The item that came in. -/
def enqueued? (o : Occurrence α) : Option α :=
  match o.event with
  | .enqueue item => some item
  | _ => none

/-- What waited has been dropped. -/
def drops (o : Occurrence α) : Bool :=
  match o.event with
  | .clear | .cancel => true
  | _ => false

/-- An execution has ended. -/
def ends (o : Occurrence α) : Bool :=
  match o.event with
  | .finish _ _ => true
  | _ => false

/-- Nothing came in, nothing was dropped and nothing started. -/
def IsQuiet (o : Occurrence α) : Prop := o.enqueued? = none ∧ o.drops = false ∧ o.started? = none

/-- What waits after an occurrence, if the given item waited before it. -/
def waitingAfter (waiting? : Option α) (o : Occurrence α) : Option α :=
  match o.enqueued? with
  | some item => some item
  | none => if o.drops || o.started?.isSome then none else waiting?

end Occurrence

/-- What waits after all that has happened. -/
def waiting? (log : List (Occurrence α)) : Option α := log.foldl Occurrence.waitingAfter none

/-- The last item that came in. -/
def latest? (log : List (Occurrence α)) : Option α := (log.filterMap (·.enqueued?)).getLast?

/-- A last occurrence changes what waits. -/
theorem waiting?_concat (log : List (Occurrence α)) (o : Occurrence α) :
    waiting? (log ++ [o]) = o.waitingAfter (waiting? log) := by
  rw [waiting?, List.foldl_append]
  rfl

/-- What waits has come in, and nothing has happened to it since. -/
theorem exists_of_waiting? {log : List (Occurrence α)} {item : α} (h : waiting? log = some item) :
    ∃ earlier e between, log = earlier ++ e :: between ∧ e.event = .enqueue item ∧ ∀ o ∈ between, o.IsQuiet := by
  induction log using List.reverseRecOn with
  | nil => cases h
  | append_singleton log o ih =>
    rw [waiting?_concat] at h
    unfold Occurrence.waitingAfter at h
    split at h
    · rename_i new hnew
      cases h
      refine ⟨log, o, [], rfl, ?_, nofun⟩
      unfold Occurrence.enqueued? at hnew
      split at hnew
      · rename_i heq
        rw [heq, Option.some.inj hnew]
      · cases hnew
    · rename_i hnone
      split at h
      · cases h
      · rename_i hkept
        simp only [Bool.or_eq_true, not_or, Bool.not_eq_true, Option.isSome_eq_false_iff, Option.isNone_iff_eq_none] at hkept
        obtain ⟨earlier, e, between, rfl, he, hquiet⟩ := ih h
        refine ⟨earlier, e, between ++ [o], by simp, he, ?_⟩
        intro p hp
        rcases List.mem_append.1 hp with hp | hp
        · exact hquiet p hp
        · exact List.mem_singleton.1 hp ▸ ⟨hnone, hkept⟩

/-- It is the last item that came in. -/
theorem latest?_of_waiting? {log : List (Occurrence α)} {item : α} (h : waiting? log = some item) :
    latest? log = some item := by
  obtain ⟨earlier, e, between, rfl, he, hquiet⟩ := exists_of_waiting? h
  have hnothing : between.filterMap (·.enqueued?) = [] := by
    rw [List.filterMap_eq_nil_iff]
    exact fun o ho => (hquiet o ho).1
  have hitem : e.enqueued? = some item := by rw [Occurrence.enqueued?, he]
  simp [latest?, hnothing, hitem]

/-- An occurrence makes what waits what it should be, and starts only what waited. -/
structure Moves (s : Scheduler α) (o : Occurrence α) (s' : Scheduler α) : Prop where
  pending : s'.pending? = o.waitingAfter s.pending?
  started : ∀ start, o.started? = some start →
    o.enqueued? = none ∧ o.drops = false ∧ s.pending? = some start.item

/-- An occurrence in which nothing starts. -/
theorem Moves.of_idle {s s' : Scheduler α} {o : Occurrence α} (hstarted : o.started? = none)
    (hpending : s'.pending? = o.waitingAfter s.pending?) : s.Moves o s' := by
  refine ⟨hpending, fun start hstart => ?_⟩
  rw [hstarted] at hstart
  cases hstart

/-- The item that waits starts, or it goes on waiting. -/
def MayStart (s : Scheduler α) (step : Option (Start α) × Scheduler α) : Prop :=
  (step.1 = none ∧ step.2.pending? = s.pending?) ∨
    ∃ start, step.1 = some start ∧ s.pending? = some start.item ∧ step.2.pending? = none

section

variable (s : Scheduler α)

theorem mayStart_start : s.MayStart s.start := by
  unfold start
  cases hpending : s.pending? with
  | none => exact Or.inl ⟨rfl, rfl⟩
  | some item => exact Or.inr ⟨_, rfl, hpending, rfl⟩

theorem mayStart_fire (now timer : Nat) : s.MayStart (s.fire now timer) := by
  unfold fire
  split
  · exact s.mayStart_start
  · exact Or.inl ⟨rfl, rfl⟩

theorem mayStart_endFlush : s.MayStart s.endFlush := by
  unfold endFlush
  split
  · exact Or.inl ⟨rfl, rfl⟩
  · exact s.mayStart_start

theorem mayStart_complete (now generation elapsed : Nat) : s.MayStart (s.complete now generation elapsed) := by
  unfold complete
  simp only
  split
  · exact Or.inl ⟨rfl, rfl⟩
  · split
    · exact mayStart_start { s with running := false }
    · exact Or.inl ⟨rfl, rfl⟩

theorem pending?_supersede : s.supersede.2.pending? = s.pending? := by
  unfold supersede
  split <;> rfl

end

/-- An occurrence in which the item that waits may start. -/
theorem MayStart.moves {s s' : Scheduler α} {o : Occurrence α} (h : s.MayStart (o.started?, s'))
    (henqueued : o.enqueued? = none) (hdrops : o.drops = false) : s.Moves o s' := by
  rcases h with ⟨hnone, hpending⟩ | ⟨start, hsome, hpending, hnone⟩
  · refine .of_idle hnone ?_
    simp only at hnone hpending
    simp [Occurrence.waitingAfter, henqueued, hdrops, hnone, hpending]
  · simp only at hsome hnone
    refine ⟨?_, fun start' hstart => ?_⟩
    · simp [Occurrence.waitingAfter, henqueued, hsome, hnone]
    · rw [hsome] at hstart
      cases hstart
      exact ⟨henqueued, hdrops, hpending⟩

end Scheduler

namespace Course

open Scheduler

variable {c : Course α}

/-- What a step adds to the log is what has happened. -/
theorem eq_of_log_after {o p : Occurrence α} {s : Scheduler α} (h : (c.after o s).log = c.log ++ [p]) : o = p :=
  List.singleton_inj.1 (List.append_cancel_left h)

/-- A step leaves the course as it is, if nothing of the kind can happen, or adds what has happened to the log. -/
theorem step_eq_or (c : Course α) (time : Nat) (event : Event α) :
    c.step time event = c ∨ ∃ o, (c.step time event).log = c.log ++ [o] ∧ o.time = time ∧ o.event = event ∧
      c.scheduler.Moves o (c.step time event).scheduler := by
  unfold step
  cases event with
  | enqueue item => exact Or.inr ⟨_, rfl, rfl, rfl, .of_idle rfl rfl⟩
  | clear => exact Or.inr ⟨_, rfl, rfl, rfl, .of_idle rfl rfl⟩
  | cancel => exact Or.inr ⟨_, rfl, rfl, rfl, .of_idle rfl (pending?_supersede c.scheduler.clear.2)⟩
  | beginFlush =>
    by_cases hpending : c.scheduler.pending?.isSome = true
    · simp only [Scheduler.beginFlush, hpending, if_true]
      exact Or.inr ⟨_, rfl, rfl, rfl, .of_idle rfl (pending?_supersede c.scheduler.stopTimer)⟩
    · simp only [Scheduler.beginFlush, hpending, Bool.false_eq_true, if_false]
      exact Or.inr ⟨_, rfl, rfl, rfl, .of_idle rfl rfl⟩
  | endFlush =>
    simp only
    split
    · exact Or.inl rfl
    · exact Or.inr ⟨_, rfl, rfl, rfl, c.scheduler.mayStart_endFlush.moves rfl rfl⟩
  | fire timer => exact Or.inr ⟨_, rfl, rfl, rfl, (c.scheduler.mayStart_fire time timer).moves rfl rfl⟩
  | finish generation elapsed =>
    simp only
    split
    · exact Or.inr ⟨_, rfl, rfl, rfl, (c.scheduler.mayStart_complete time generation elapsed).moves rfl rfl⟩
    · exact Or.inl rfl

/-- What has been waiting, and what has started, as the log of a course tells it. -/
structure HoldsLatest (c : Course α) : Prop where
  pending : c.scheduler.pending? = waiting? c.log
  subsequence : List.Sublist (c.starts.map (·.item) ++ (waiting? c.log).toList) (c.log.filterMap (·.enqueued?))

/-- What starts has come in, and has not started before. -/
theorem HoldsLatest.step (h : c.HoldsLatest) (time : Nat) (event : Event α) : (c.step time event).HoldsLatest := by
  rcases step_eq_or c time event with heq | ⟨o, hlog, -, -, hmoves⟩
  · rw [heq]
    exact h
  · obtain ⟨hpending, hsub⟩ := h
    constructor
    · rw [hmoves.pending, hpending, hlog, waiting?_concat]
    · rw [starts] at hsub ⊢
      rw [hlog, waiting?_concat, List.filterMap_append, List.filterMap_append, List.map_append]
      have hdropped := (List.sublist_append_left _ _).trans hsub
      cases hstarted : o.started? with
      | none =>
        unfold Occurrence.waitingAfter
        cases henqueued : o.enqueued? with
        | some item => simpa [hstarted, henqueued] using hdropped.append (List.Sublist.refl [item])
        | none =>
          cases hdrops : o.drops with
          | true => simpa [hstarted, henqueued] using hdropped
          | false => simpa [hstarted, henqueued] using hsub
      | some start =>
        obtain ⟨henqueued, -, hwaiting⟩ := hmoves.started start hstarted
        rw [hpending] at hwaiting
        rw [hwaiting] at hsub
        simpa [Occurrence.waitingAfter, hstarted, henqueued] using hsub

/-- Along a run the latest item is held. -/
theorem HoldsLatest.run (h : c.HoldsLatest) (events : List (Nat × Event α)) : (c.run events).HoldsLatest := by
  induction events generalizing c with
  | nil => exact h
  | cons event events ih => exact ih (h.step event.1 event.2)

/-- In the beginning there is nothing to hold. -/
theorem holdsLatest_ofTiming (timing : Timing) : (ofTiming timing : Course α).HoldsLatest := ⟨rfl, List.Sublist.slnil⟩

/-! ## What happened when -/

/-- The first thing that a course adds to the log: nothing has changed before it, and the rest comes after it. -/
theorem exists_step_of_log_eq {events : List (Nat × Event α)} {o : Occurrence α} {after : List (Occurrence α)}
    (h : (c.run events).log = c.log ++ o :: after) :
    (c.step o.time o.event).log = c.log ++ [o] ∧ c.scheduler.Moves o (c.step o.time o.event).scheduler ∧
      ∃ rest, c.run events = (c.step o.time o.event).run rest := by
  induction events with
  | nil => simp [run] at h
  | cons event events ih =>
    rw [run, List.foldl_cons] at h ⊢
    rcases step_eq_or c event.1 event.2 with heq | ⟨p, hlog, htime, hevent, hmoves⟩
    · rw [heq] at h ⊢
      exact ih h
    · obtain ⟨added, hadded⟩ := log_prefix_run (c.step event.1 event.2) events
      have hsame : p = o := by
        rw [run, h, hlog, List.append_assoc] at hadded
        exact (List.cons.inj (List.append_cancel_left hadded)).1
      subst hsame
      rw [htime, hevent]
      exact ⟨hlog, hmoves, events, rfl⟩

/-- Where the log of a course is divided at an occurrence, so is the course. -/
theorem exists_run_of_log_eq {events : List (Nat × Event α)} (before : List (Occurrence α)) {after : List (Occurrence α)}
    {o : Occurrence α} (h : (c.run events).log = c.log ++ before ++ o :: after) :
    ∃ done rest, (c.run done).log = c.log ++ before ∧
      ((c.run done).step o.time o.event).log = (c.run done).log ++ [o] ∧
      (c.run done).scheduler.Moves o ((c.run done).step o.time o.event).scheduler ∧
      c.run events = ((c.run done).step o.time o.event).run rest := by
  induction before generalizing c events with
  | nil =>
    rw [List.append_nil] at h ⊢
    obtain ⟨hlog, hmoves, rest, hrest⟩ := exists_step_of_log_eq h
    exact ⟨[], rest, rfl, hlog, hmoves, hrest⟩
  | cons p before ih =>
    rw [List.append_assoc] at h
    obtain ⟨hlog, -, tail, htail⟩ := exists_step_of_log_eq h
    have hsplit : ((c.step p.time p.event).run tail).log = (c.step p.time p.event).log ++ before ++ o :: after := by
      rw [← htail, h, hlog]
      simp
    obtain ⟨done, rest, hdone, hstep, hmoves, hrest⟩ := ih hsplit
    rw [hlog, List.append_assoc, List.singleton_append] at hdone
    exact ⟨(p.time, p.event) :: done, rest, hdone, hstep, hmoves, htail.trans hrest⟩

/-! ## A flush is honoured -/

/-- A flush has been put off: an item waits for the end of an execution that no longer counts. -/
structure IsOwed (c : Course α) : Prop where
  waits : c.scheduler.pending?.isSome = true
  running : c.scheduler.running = true
  overtaken : c.scheduler.inFlight = false
  requested : c.scheduler.flushRequested = true

/-- Where nothing is dropped, a flush that has been put off stays so, unless an execution ends; and then something starts. -/
theorem IsOwed.step {time : Nat} {event : Event α} {o : Occurrence α} (h : c.IsOwed) (htracked : c.IsTracked)
    (hlog : (c.step time event).log = c.log ++ [o]) (hdrops : o.drops = false) :
    (o.ends = false ∧ (c.step time event).IsOwed) ∨ (o.ends = true ∧ o.started?.isSome = true) := by
  obtain ⟨hwaits, hrunning, hovertaken, hrequested⟩ := h
  cases event with
  | enqueue item =>
    obtain rfl := eq_of_log_after hlog
    exact Or.inl ⟨rfl, rfl, hrunning, hovertaken, hrequested⟩
  | clear =>
    obtain rfl := eq_of_log_after hlog
    cases hdrops
  | cancel =>
    obtain rfl := eq_of_log_after hlog
    cases hdrops
  | beginFlush =>
    have hstep : c.scheduler.beginFlush = some (false, c.scheduler.stopTimer) := by
      simp [Scheduler.beginFlush, hwaits, supersede, stopTimer, hovertaken]
    simp only [Course.step, hstep] at hlog ⊢
    obtain rfl := eq_of_log_after hlog
    exact Or.inl ⟨rfl, hwaits, hrunning, hovertaken, hrequested⟩
  | endFlush =>
    have hstep : c.scheduler.endFlush = (none, { c.scheduler with flushRequested := true }) := by
      simp [Scheduler.endFlush, hrunning]
    simp only [Course.step, hstep] at hlog ⊢
    split at hlog
    · simp at hlog
    · rename_i hflushes
      obtain rfl := eq_of_log_after hlog
      simp only [hflushes, if_false]
      exact Or.inl ⟨rfl, hwaits, hrunning, hovertaken, rfl⟩
  | fire timer =>
    have hstep : c.scheduler.fire time timer = (none, c.scheduler) := by
      simp [Scheduler.fire, hrunning]
    simp only [Course.step, hstep] at hlog ⊢
    obtain rfl := eq_of_log_after hlog
    exact Or.inl ⟨rfl, hwaits, hrunning, hovertaken, hrequested⟩
  | finish generation elapsed =>
    by_cases htask : c.tasks.any (·.generation == generation) = true
    · obtain ⟨task, hmem, htag⟩ := List.any_eq_true.1 htask
      have hstale : c.scheduler.generation ≠ generation := by
        intro heq
        have hflight := htracked.inFlight.2 ⟨task, hmem, (beq_iff_eq.1 htag).trans heq.symm⟩
        rw [hovertaken] at hflight
        cases hflight
      obtain ⟨item, hitem⟩ := Option.isSome_iff_exists.1 hwaits
      simp only [Course.step, htask, if_true] at hlog
      obtain rfl := eq_of_log_after hlog
      refine Or.inr ⟨rfl, ?_⟩
      simp [Scheduler.complete, hstale, hrequested, Scheduler.start, hitem]
    · simp only [Course.step, htask, Bool.false_eq_true, if_false] at hlog
      simp at hlog

/-- So it is until an execution ends, however the course goes on. -/
theorem IsOwed.run {events : List (Nat × Event α)} {between after : List (Occurrence α)} {o : Occurrence α}
    (h : c.IsOwed) (htracked : c.IsTracked) (hlog : (c.run events).log = c.log ++ between ++ o :: after)
    (hquiet : ∀ p ∈ between, p.drops = false ∧ p.started? = none) (hdrops : o.drops = false) (hends : o.ends = true) :
    o.started?.isSome = true := by
  induction between generalizing c events with
  | nil =>
    rw [List.append_nil] at hlog
    obtain ⟨hstep, -, -⟩ := exists_step_of_log_eq hlog
    rcases h.step htracked hstep hdrops with ⟨hnot, -⟩ | ⟨-, hstarted⟩
    · rw [hnot] at hends
      cases hends
    · exact hstarted
  | cons p between ih =>
    rw [List.append_assoc] at hlog
    obtain ⟨hstep, -, rest, hrest⟩ := exists_step_of_log_eq hlog
    obtain ⟨hkept, hidle⟩ := hquiet p List.mem_cons_self
    have htail : ((c.step p.time p.event).run rest).log = (c.step p.time p.event).log ++ between ++ o :: after := by
      rw [← hrest, hlog, hstep]
      simp
    rcases h.step htracked hstep hkept with ⟨-, howed⟩ | ⟨-, hstarted⟩
    · exact ih howed (htracked.step _ _) htail fun q hq => hquiet q (List.mem_cons_of_mem _ hq)
    · rw [hidle] at hstarted
      cases hstarted

/-- Where a flush finds an item, this goes on waiting and nothing under way counts any more. -/
theorem waits_of_beginFlush {now : Nat} {b : Occurrence α} (hb : (c.step now .beginFlush).log = c.log ++ [b])
    (hanswer : b.answer = true) :
    (c.step now .beginFlush).scheduler.pending?.isSome = true ∧ (c.step now .beginFlush).scheduler.inFlight = false := by
  by_cases hpending : c.scheduler.pending?.isSome = true
  · simp only [Course.step, Scheduler.beginFlush, hpending, if_true, scheduler_after, pending?_supersede]
    refine ⟨hpending, ?_⟩
    unfold supersede
    split
    · rfl
    · rename_i hflight
      exact Bool.eq_false_iff.2 hflight
  · simp only [Course.step, Scheduler.beginFlush, hpending, Bool.false_eq_true, if_false] at hb
    obtain rfl := eq_of_log_after hb
    cases hanswer

/-- A flush that finds an item and does not start it is put off. -/
theorem isOwed_of_flush {now later : Nat} {b e : Occurrence α} (hb : (c.step now .beginFlush).log = c.log ++ [b])
    (hanswer : b.answer = true)
    (he : ((c.step now .beginFlush).step later .endFlush).log = (c.step now .beginFlush).log ++ [e])
    (hstarted : e.started? = none) : ((c.step now .beginFlush).step later .endFlush).IsOwed := by
  have hbegun := waits_of_beginFlush hb hanswer
  generalize c.step now .beginFlush = c at hbegun he ⊢
  obtain ⟨hwaits, hovertaken⟩ := hbegun
  obtain ⟨item, hitem⟩ := Option.isSome_iff_exists.1 hwaits
  by_cases hflushes : c.flushes = 0
  · simp [Course.step, hflushes] at he
  · by_cases hrunning : c.scheduler.running = true
    · simp only [Course.step, hflushes, if_false, Scheduler.endFlush, hrunning, if_true]
      exact ⟨hwaits, rfl, hovertaken, rfl⟩
    · simp only [Course.step, hflushes, if_false, Scheduler.endFlush, hrunning, Scheduler.start, hitem] at he
      obtain rfl := eq_of_log_after he
      cases hstarted

/-! ## The main statement -/

section

variable {timing : Timing} {events : List (Nat × Event α)} {before after : List (Occurrence α)} {o : Occurrence α}
  {start : Start α}

/-- What starts has been waiting. -/
theorem waiting?_of_started (h : ((ofTiming timing : Course α).run events).log = before ++ o :: after)
    (hstarted : o.started? = some start) : waiting? before = some start.item := by
  obtain ⟨done, rest, hdone, -, hmoves, -⟩ := exists_run_of_log_eq (c := ofTiming timing) before h
  have hpending := ((holdsLatest_ofTiming timing).run done).pending
  rw [(hmoves.started start hstarted).2.2, hdone] at hpending
  exact hpending.symm

/-- What starts after something has been dropped has come in since. -/
theorem exists_enqueue_of_started {between : List (Occurrence α)} {d : Occurrence α}
    (h : ((ofTiming timing : Course α).run events).log = before ++ d :: between ++ o :: after) (hdrops : d.drops = true)
    (hstarted : o.started? = some start) : ∃ e ∈ between, e.event = .enqueue start.item := by
  obtain ⟨earlier, e, since, hsplit, he, hquiet⟩ := exists_of_waiting? (waiting?_of_started h hstarted)
  have hnot : d ∉ e :: since := by
    intro hd
    rcases List.mem_cons.1 hd with rfl | hd
    · rw [Occurrence.drops, he] at hdrops
      cases hdrops
    · rw [(hquiet d hd).2.1] at hdrops
      cases hdrops
  rcases List.append_eq_append_iff.1 hsplit with ⟨gap, -, hgap⟩ | ⟨gap, -, hgap⟩
  · cases gap with
    | nil => exact absurd (List.mem_of_mem_head? (congrArg List.head? hgap).symm) hnot
    | cons first gap =>
      obtain ⟨-, rfl⟩ := List.cons.inj hgap
      exact ⟨e, by simp, he⟩
  · exact absurd (hgap ▸ List.mem_append_right gap List.mem_cons_self) hnot

/-- A flush that finds an item and does not start it lets it start when an execution ends. -/
theorem started_of_flush {between : List (Occurrence α)} {b e : Occurrence α}
    (h : ((ofTiming timing : Course α).run events).log = before ++ b :: e :: between ++ o :: after)
    (hb : b.event = .beginFlush) (hanswer : b.answer = true) (he : e.event = .endFlush) (hstarted : e.started? = none)
    (hquiet : ∀ p ∈ between, p.drops = false ∧ p.started? = none) (hdrops : o.drops = false) (hends : o.ends = true) :
    o.started?.isSome = true := by
  rw [List.append_assoc, List.cons_append, List.cons_append] at h
  obtain ⟨done, rest, hdone, hbegun, -, hrest⟩ := exists_run_of_log_eq (c := ofTiming timing) before h
  rw [hb] at hbegun hrest
  have htail : ((((ofTiming timing).run done).step b.time .beginFlush).run rest).log =
      (((ofTiming timing).run done).step b.time .beginFlush).log ++ e :: (between ++ o :: after) := by
    rw [← hrest, h, hbegun, hdone]
    simp [ofTiming]
  obtain ⟨hended, -, last, hlast⟩ := exists_step_of_log_eq htail
  rw [he] at hended hlast
  have htracked := (((isTracked_ofTiming timing).run done).step b.time .beginFlush).step e.time .endFlush
  have hlog : (((((ofTiming timing).run done).step b.time .beginFlush).step e.time .endFlush).run last).log =
      ((((ofTiming timing).run done).step b.time .beginFlush).step e.time .endFlush).log ++ between ++ o :: after := by
    rw [← hlast, htail, hended]
    simp
  exact (isOwed_of_flush hbegun hanswer hended hstarted).run htracked hlog hquiet hdrops hends

end

/-- On every course of a scheduler what starts are items that have come in, in their order and each once. An item that starts is
the last one that came in, and nothing has been dropped and nothing has started since; once something has been dropped, nothing
starts before the next item comes in. A flush that found an item starts the last one that came in: at once, or else at the
next end of an execution, unless something starts or is dropped before, and whatever starts next is the last one that came in
by then. -/
theorem latest_wins (timing : Timing) (events : List (Nat × Event α)) :
    let c := (ofTiming timing).run events
    List.Sublist (c.starts.map (·.item)) (c.log.filterMap (·.enqueued?)) ∧
    (∀ before o after start, c.log = before ++ o :: after → o.started? = some start →
      ∃ earlier e between, before = earlier ++ e :: between ∧ e.event = .enqueue start.item ∧
        ∀ p ∈ between, p.IsQuiet) ∧
    (∀ before d between o after start, c.log = before ++ d :: between ++ o :: after → d.drops = true →
      o.started? = some start → ∃ e ∈ between, e.event = .enqueue start.item) ∧
    ∀ before b e after, c.log = before ++ b :: e :: after → b.event = .beginFlush → b.answer = true →
      e.event = .endFlush →
      (∃ start, e.started? = some start ∧ latest? before = some start.item) ∨
      e.started? = none ∧ ∀ between o rest, after = between ++ o :: rest →
        (∀ p ∈ between, p.drops = false ∧ p.started? = none) → o.drops = false →
        (o.ends = true → o.started?.isSome = true) ∧
        ∀ start, o.started? = some start → latest? (before ++ b :: e :: between) = some start.item := by
  intro c
  refine ⟨?_, ?_, ?_, ?_⟩
  · exact (List.sublist_append_left _ _).trans ((holdsLatest_ofTiming timing).run events).subsequence
  · intro before o after start h hstarted
    exact exists_of_waiting? (waiting?_of_started h hstarted)
  · intro before d between o after start h hdrops hstarted
    exact exists_enqueue_of_started h hdrops hstarted
  · intro before b e after h hb hanswer he
    cases hstarted : e.started? with
    | some start =>
      refine Or.inl ⟨start, rfl, ?_⟩
      have hlog : c.log = before ++ [b] ++ e :: after := by simp [h]
      have hlatest := latest?_of_waiting? (waiting?_of_started hlog hstarted)
      have hnone : b.enqueued? = none := by rw [Occurrence.enqueued?, hb]
      simpa [latest?, hnone] using hlatest
    | none =>
      refine Or.inr ⟨rfl, ?_⟩
      intro between o rest hafter hquiet hdrops
      have hlog : c.log = before ++ b :: e :: between ++ o :: rest := by simp [h, hafter]
      refine ⟨started_of_flush hlog hb hanswer he hstarted hquiet hdrops, fun start hstart => ?_⟩
      exact latest?_of_waiting? (waiting?_of_started hlog hstart)

/-- A flush waits for the end of an execution, and what then starts is an item that came in after it. -/
theorem latest_wins_deferred :
    let c := (ofTiming {} : Course String).run
      [(0, .enqueue "draft"), (1000, .fire 1), (1200, .enqueue "sketch"), (1300, .beginFlush), (1300, .endFlush),
        (1310, .enqueue "final"), (1500, .finish 1 500)]
    let ending : Occurrence String := { time := 1500, event := .finish 1 500, started? := some ⟨"final", 3⟩ }
    c.log = c.log.take 6 ++ [ending] ∧ ending.started?.isSome = true ∧
      latest? (c.log.take 6) = some "final" ∧
      List.Sublist (c.starts.map (·.item)) ["draft", "sketch", "final"] := by
  intro c ending
  have h := latest_wins {} [(0, .enqueue "draft"), (1000, .fire 1), (1200, .enqueue "sketch"), (1300, .beginFlush),
    (1300, .endFlush), (1310, .enqueue "final"), (1500, .finish 1 500)]
  have hlog : c.log = c.log.take 6 ++ [ending] := by decide
  refine ⟨hlog, ?_, ?_, h.1⟩
  all_goals
    rcases h.2.2.2 (c.log.take 3) { time := 1300, event := .beginFlush, answer := true, superseded? := some 1 }
      { time := 1300, event := .endFlush } (c.log.drop 5) (by decide) rfl rfl rfl with ⟨start, hstarted, -⟩ | ⟨-, hflush⟩
    · cases hstarted
  · exact (hflush [{ time := 1310, event := .enqueue "final" }] ending [] (by decide) (by decide) rfl).1 rfl
  · exact (hflush [{ time := 1310, event := .enqueue "final" }] ending [] (by decide) (by decide) rfl).2 _ rfl

end Course

end Whiteboard
