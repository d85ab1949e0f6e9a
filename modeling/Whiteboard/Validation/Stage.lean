/-!
# Stages of validation

A candidate goes through the stages one after the other. The attempts that fail are counted for each stage.
-/

namespace Whiteboard

/-- How far a candidate has come. -/
inductive Stage where
  | linting
  | validatingIds
  | validatingSyntax
  | accepted
  | failed
  deriving DecidableEq, Repr

namespace Stage

/-- All stages in order. -/
def all : List Stage := [linting, validatingIds, validatingSyntax, accepted, failed]

/-- The name of a stage in data. -/
def name : Stage → String
  | linting => "linting"
  | validatingIds => "validatingIds"
  | validatingSyntax => "validatingSyntax"
  | accepted => "accepted"
  | failed => "failed"

/-- The name of a stage for a reader. -/
def text : Stage → String
  | linting => "linting"
  | validatingIds => "validating ids"
  | validatingSyntax => "validating syntax"
  | accepted => "accepted"
  | failed => "failed"

/-- The stage after a pass. -/
def next : Stage → Stage
  | linting => validatingIds
  | validatingIds => validatingSyntax
  | validatingSyntax | accepted => accepted
  | failed => failed

/-- There is no way on from here. -/
def isTerminal : Stage → Bool
  | accepted | failed => true
  | _ => false

end Stage

/-- The number of failures at a stage after which a run gives up, unless it is set otherwise. -/
def defaultMaxAttempts : Nat := 5

/-- The failures so far at each stage that can fail. -/
structure AttemptBudget where
  maxPerStage : Nat
  linting : Nat := 0
  ids : Nat := 0
  grammar : Nat := 0
  deriving DecidableEq, Repr

namespace AttemptBudget

/-- A budget of that many failures at each stage, and at least one. -/
def ofMax (n : Nat) : AttemptBudget := { maxPerStage := max n 1 }

/-- The failures at a stage. -/
def used (b : AttemptBudget) : Stage → Nat
  | .linting => b.linting
  | .validatingIds => b.ids
  | .validatingSyntax => b.grammar
  | .accepted | .failed => 0

/-- One more failure at a stage; stages that cannot fail are not counted. -/
def spend (b : AttemptBudget) : Stage → AttemptBudget
  | .linting => { b with linting := b.linting + 1 }
  | .validatingIds => { b with ids := b.ids + 1 }
  | .validatingSyntax => { b with grammar := b.grammar + 1 }
  | .accepted | .failed => b

/-- One more failure at a stage, and whether a revision is still allowed. -/
def recordFailure (b : AttemptBudget) (stage : Stage) : Bool × AttemptBudget :=
  let spent := b.spend stage
  (!stage.isTerminal && spent.used stage < b.maxPerStage, spent)

/-- The failures that are still allowed in all. -/
def remaining (b : AttemptBudget) : Nat :=
  (b.maxPerStage - b.linting) + (b.maxPerStage - b.ids) + (b.maxPerStage - b.grammar)

/-- A failure after which a revision is allowed uses up the budget. -/
theorem remaining_recordFailure (b : AttemptBudget) (stage : Stage) (h : (b.recordFailure stage).1 = true) :
    (b.recordFailure stage).2.remaining < b.remaining := by
  cases stage <;> simp [recordFailure, spend, used, Stage.isTerminal] at h
  all_goals
    have := of_decide_eq_true h
    simp only [recordFailure, spend, remaining]
    omega

end AttemptBudget

end Whiteboard
