import Whiteboard.Proofs.Schedule.Clock
import Whiteboard.Session.Session

/-!
# What a run does to its session

Main statement: a run asks the generator, however often, and then waits for an answer or ends, and all the while it works for
the transcript and the canvas that it began with (`Session.continues_beginRun`, `Session.continues_proceed`). Only its end can
change the canvas and the records, and only if its execution has not been superseded (`Session.conclude_eq_or`).
-/

namespace Whiteboard.Session

/-- The execution that an event begins. -/
def Event.begun? : Event → Option (Start String)
  | .begin start => some start
  | _ => none

/-- The executions that are still to begin. -/
def begins (clock : Clock Event) : List (Start String) := clock.events.filterMap Event.begun?

/-- The execution that a run under way belongs to, as the scheduler started it. -/
def Job.start? (job : Job) : Option (Start String) :=
  job.execution?.map fun e => ⟨job.run.request.transcript, e.generation⟩

section

variable (s : Session σ ρ)

/-- The executions that have started and have not ended. -/
def underWay : List (Start String) := begins s.clock ++ s.jobs.filterMap Job.start?

/-- What the generator is told of a transcript, with the canvas as it is. -/
def requestFor (transcript : String) : Request :=
  ⟨transcript, s.applier.mode, Context.ofScene s.store.canvas.scene⟩

/-- What a text is checked for, with the canvas as it is. -/
def checks : Pipeline := Pipeline.forMode s.settings.lint s.applier.mode (LiveIds.ofScene s.store.canvas.scene)

/-- The run could have begun for a transcript with the canvas as it is. -/
structure IsRunOf (transcript : String) (run : Revision) : Prop where
  request : run.request = s.requestFor transcript
  pipeline : run.pipeline = s.checks

end

/-- The two states have the same canvas and the same ways to work on it. -/
structure Keeps (s s' : Session σ ρ) : Prop where
  settings : s'.settings = s.settings
  applier : s'.applier = s.applier
  store : s'.store = s.store
  records : s'.records = s.records

/-- Between the two states nothing but calls has happened. -/
structure Asked (s s' : Session σ ρ) : Prop extends Keeps s s' where
  scheduler : s'.scheduler = s.scheduler
  jobs : s'.jobs = s.jobs
  now : s'.clock.now = s.clock.now
  begins : begins s'.clock = begins s.clock

section

variable {s s' s'' : Session σ ρ}

theorem Keeps.refl (s : Session σ ρ) : s.Keeps s := ⟨rfl, rfl, rfl, rfl⟩

theorem Keeps.symm (h : s.Keeps s') : s'.Keeps s := ⟨h.settings.symm, h.applier.symm, h.store.symm, h.records.symm⟩

theorem Keeps.trans (h : s.Keeps s') (h' : s'.Keeps s'') : s.Keeps s'' :=
  ⟨h'.settings.trans h.settings, h'.applier.trans h.applier, h'.store.trans h.store, h'.records.trans h.records⟩

/-- A run works for the canvas as long as it is the same. -/
theorem Keeps.isRunOf (h : s.Keeps s') {transcript : String} {run : Revision} (hrun : s.IsRunOf transcript run) :
    s'.IsRunOf transcript run := by
  obtain ⟨hrequest, hpipeline⟩ := hrun
  constructor
  · rw [hrequest, requestFor, requestFor, h.applier, h.store]
  · rw [hpipeline, checks, checks, h.settings, h.applier, h.store]

theorem Asked.refl (s : Session σ ρ) : s.Asked s := ⟨.refl s, rfl, rfl, rfl, rfl⟩

theorem Asked.trans (h : s.Asked s') (h' : s'.Asked s'') : s.Asked s'' :=
  ⟨h.toKeeps.trans h'.toKeeps, h'.scheduler.trans h.scheduler, h'.jobs.trans h.jobs, h'.now.trans h.now,
    h'.begins.trans h.begins⟩

end

/-- Making a call is nothing but a call. -/
theorem asked_ask (s : Session σ ρ) (call : Call) : s.Asked (s.ask call).2 := by
  unfold ask
  simp only
  split
  · exact ⟨⟨rfl, rfl, rfl, rfl⟩, rfl, rfl, rfl, rfl⟩
  · exact ⟨⟨rfl, rfl, rfl, rfl⟩, rfl, rfl, rfl, by simp [begins, Event.begun?]⟩

/-- A run goes on with the same request and the same checks. -/
theorem IsRunOf.resume {s : Session σ ρ} {transcript : String} {run next : Revision} {answer : Answer} {call : Call}
    (h : s.IsRunOf transcript run) (hnext : run.resume answer = .ask call next) : s.IsRunOf transcript next := by
  unfold Revision.resume at hnext
  split at hnext
  · cases hnext
  · split at hnext
    · cases hnext
    · split at hnext
      · cases hnext
        exact ⟨h.request, h.pipeline⟩
      · cases hnext

/-- What a run comes to: after calls it waits for an answer, or the last answer ends it. -/
inductive Continues (s : Session σ ρ) (execution? : Option Execution) (transcript : String) : Session σ ρ → Prop where
  | waits {mid : Session σ ρ} {run : Revision} (call : Nat) (hasked : s.Asked mid) (hrun : s.IsRunOf transcript run) :
    Continues s execution? transcript { mid with jobs := mid.jobs ++ [⟨execution?, call, run⟩] }
  | ends {mid : Session σ ρ} {run : Revision} {answer : Answer} {result : Except RunError Accepted} (hasked : s.Asked mid)
    (hrun : s.IsRunOf transcript run) (hdone : run.resume answer = .done result) :
    Continues s execution? transcript
      ((mid.conclude execution? result).2.report execution? (mid.conclude execution? result).1)

/-- A run may begin with calls. -/
theorem Continues.of_asked {s mid s' : Session σ ρ} {execution? : Option Execution} {transcript : String}
    (hasked : s.Asked mid) (h : mid.Continues execution? transcript s') : s.Continues execution? transcript s' := by
  cases h with
  | waits call hlater hrun => exact .waits call (hasked.trans hlater) (hasked.toKeeps.symm.isRunOf hrun)
  | ends hlater hrun hdone => exact .ends (hasked.trans hlater) (hasked.toKeeps.symm.isRunOf hrun) hdone

/-- A run that goes on comes to an answer that it waits for, or to its end. -/
theorem continues_proceed {s : Session σ ρ} {transcript : String} {run : Revision} (hrun : s.IsRunOf transcript run)
    (execution? : Option Execution) (answer : Answer) :
    s.Continues execution? transcript (s.proceed execution? run answer) := by
  induction hremaining : run.budget.remaining using Nat.strongRecOn generalizing s run answer with
  | ind remaining ih =>
    unfold proceed
    split
    · rename_i result hdone
      exact .ends (.refl s) hrun hdone
    · rename_i call next hnext
      have hasked := s.asked_ask call
      have hlater := hrun.resume hnext
      split
      · rename_i later mid hask
        rw [hask] at hasked
        have hless := Revision.remaining_resume hnext
        rw [hremaining] at hless
        exact .of_asked hasked (ih _ hless (hasked.toKeeps.isRunOf hlater) later rfl)
      · rename_i id mid hask
        rw [hask] at hasked
        exact .waits id hasked hlater

/-- A run that begins works for its transcript and the canvas as it is. -/
theorem continues_beginRun (s : Session σ ρ) (execution? : Option Execution) (transcript : String) :
    s.Continues execution? transcript (s.beginRun execution? transcript) := by
  have hrun : s.IsRunOf transcript (Revision.begin (s.requestFor transcript) s.checks s.settings.maxAttempts).2 :=
    ⟨rfl, rfl⟩
  have hasked := s.asked_ask (Revision.begin (s.requestFor transcript) s.checks s.settings.maxAttempts).1
  unfold beginRun
  simp only [requestFor, checks] at hasked hrun ⊢
  split
  · rename_i answer mid hask
    rw [hask] at hasked
    exact .of_asked hasked (continues_proceed (hasked.toKeeps.isRunOf hrun) execution? answer)
  · rename_i id mid hask
    rw [hask] at hasked
    exact .waits id hasked hrun

/-- The end of a run leaves everything alone, or it puts an accepted text on the canvas for an execution that has not been
superseded. -/
theorem conclude_eq_or (s : Session σ ρ) (execution? : Option Execution) (result : Except RunError Accepted) :
    (s.conclude execution? result).2 = s ∨ ∃ accepted applied, result = .ok accepted ∧
      s.isSuperseded execution? = false ∧ s.applier.apply s.clock.now s.store s.records accepted.text = .ok applied ∧
      (s.conclude execution? result).2 = { s with store := applied.store, records := applied.records } := by
  unfold conclude
  split
  · exact Or.inl rfl
  · rename_i accepted
    split
    · exact Or.inl rfl
    · rename_i hcurrent
      split
      · rename_i applied happly
        exact Or.inr ⟨accepted, applied, rfl, Bool.eq_false_iff.2 hcurrent, happly, rfl⟩
      · exact Or.inl rfl

end Whiteboard.Session
