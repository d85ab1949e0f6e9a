import Whiteboard.Diagram.Printer
import Whiteboard.Generation.Request
import Whiteboard.Validation.Pipeline

/-!
# Asking until a diagram is acceptable

A run asks a generator for a proposal. A candidate that does not pass the checks goes back with the feedback, and the
revision takes its place and starts from the first check again. A run ends with a text that passed every check, with a
stage that used up its attempts, or with a call that failed.
-/

namespace Whiteboard

/-- A text that passed every check. -/
structure Accepted where
  text : String
  warnings : List Lint.Violation
  /-- The number of calls that it took. -/
  attempts : Nat
  deriving DecidableEq, Repr

/-- Why a run ended without a diagram. -/
inductive RunError where
  /-- A stage used up its attempts; the feedback on the last candidate. -/
  | exhausted (stage : Stage) (detail : String)
  /-- A call failed. -/
  | generation (cause : GenerationError)
  deriving DecidableEq, Repr

namespace RunError

/-- What is said of such a run. -/
def message : RunError → String
  | exhausted stage detail => "gave up while " ++ stage.text ++ ": " ++ detail
  | generation cause => cause.message

/-- The run was given up rather than failed. -/
def isCancelled : RunError → Bool
  | generation cause => cause.isCancelled
  | exhausted _ _ => false

end RunError

/-- The feedback on a description that breaks rules of the schema. -/
def schemaFeedback (violations : List Spec.Violation) : String :=
  "The diagram spec is invalid:\n" ++ String.join (violations.map fun v => "- " ++ v.message ++ "\n")

/-- The text of a proposal. -/
def Proposal.candidate : Proposal → String
  | text t => t
  | spec s => s.render

/-- What the checks say of a proposal. A description has to keep to the schema before its text is looked at. -/
def Pipeline.judge (p : Pipeline) (proposal : Proposal) : Except Pipeline.Rejection (List Lint.Violation) :=
  match proposal with
  | .text t => p.validate t
  | .spec s =>
    match s.violations p.liveNodeIds with
    | [] => p.validate s.render
    | violations => .error ⟨.linting, schemaFeedback violations⟩

/-- A run whose call is under way. -/
structure Revision where
  request : Request
  pipeline : Pipeline
  budget : AttemptBudget
  /-- The number of calls so far. -/
  attempts : Nat := 1

namespace Revision

/-- What happens next in a run. -/
inductive Step where
  | ask (call : Call) (run : Revision)
  | done (result : Except RunError Accepted)

/-- A run begins with the request for a proposal. -/
def begin (request : Request) (pipeline : Pipeline) (maxAttempts : Nat) : Call × Revision :=
  (.propose request, { request, pipeline, budget := .ofMax maxAttempts })

/-- The run after the answer to its call. -/
def resume (run : Revision) : Answer → Step
  | .error e => .done (.error (.generation e))
  | .ok proposal =>
    match run.pipeline.judge proposal with
    | .ok warnings => .done (.ok ⟨proposal.candidate, warnings, run.attempts⟩)
    | .error ⟨stage, feedback⟩ =>
      match run.budget.recordFailure stage with
      | (true, budget) =>
        .ask (.revise run.request proposal.candidate feedback) { run with budget, attempts := run.attempts + 1 }
      | (false, _) => .done (.error (.exhausted stage feedback))

/-- A run that goes on has less of its budget left. -/
theorem remaining_resume {run next : Revision} {answer : Answer} {call : Call}
    (h : run.resume answer = .ask call next) : next.budget.remaining < run.budget.remaining := by
  unfold resume at h
  split at h
  · cases h
  · split at h
    · cases h
    · rename_i stage feedback _
      split at h
      · rename_i budget hb
        cases h
        have := AttemptBudget.remaining_recordFailure run.budget stage (by rw [hb])
        rwa [hb] at this
      · cases h

/-- The run to its end, with every call answered as soon as it is made. -/
def runFrom (generator : Generator σ) (state : σ) (call : Call) (run : Revision) : Except RunError Accepted × σ :=
  let (reply, state) := generator state call
  match _h : run.resume reply.answer with
  | .done result => (result, state)
  | .ask call next => runFrom generator state call next
termination_by run.budget.remaining
decreasing_by exact remaining_resume ‹_›

/-- A whole run. -/
def run (generator : Generator σ) (state : σ) (request : Request) (pipeline : Pipeline) (maxAttempts : Nat) :
    Except RunError Accepted × σ :=
  let (call, revision) := begin request pipeline maxAttempts
  runFrom generator state call revision

end Revision

end Whiteboard
