import Whiteboard.Canvas.Apply
import Whiteboard.Canvas.Context
import Whiteboard.Diagram.Grammar
import Whiteboard.Ids.Check
import Whiteboard.Lint.Report
import Whiteboard.Validation.Stage

/-!
# The validation of a text

A text is linted, its ids are checked against the canvas, and the strict grammar has the last word.
-/

namespace Whiteboard

/-- What the strict grammar has to say against a text. -/
def grammarFault? (text : String) : Option String :=
  match checkSyntax text with
  | .ok () => none
  | .error e => some e.message

/-- The checks at each stage. -/
structure Pipeline where
  lint : Lint.Options
  ids : Ids.Options
  /-- What the last check has to say against a text. -/
  syntaxFault? : String → Option String := grammarFault?

/-- What comes of a stage. -/
inductive Evaluation where
  /-- The stage is passed; warnings do not block it. -/
  | passed (warnings : List Lint.Violation)
  /-- The stage is not passed, and why. -/
  | rejected (feedback : String)
  deriving DecidableEq, Repr

namespace Pipeline

/-- The checks of ids that a mode asks for. A canvas that is replaced holds nothing to collide with. -/
def idsFor (mode : ApplyMode) (live : LiveIds) : Ids.Options :=
  match mode with
  | .replaceCanvas => { checkExisting := false }
  | .incremental => { usedNodeIds := live.nodeIds, usedEdgeIds := live.edgeIds, labelToId := live.labelToId }

/-- The checks for a text that will be put on a canvas with these ids. -/
def forMode (lint : Lint.Options) (mode : ApplyMode) (live : LiveIds) : Pipeline := { lint, ids := idsFor mode live }

/-- The nodes that a description may refer to besides its own. -/
def liveNodeIds (p : Pipeline) : List String := p.ids.usedNodeIds

/-- The feedback on a text that the grammar rejects. -/
def syntaxFeedback (fault : String) : String :=
  "The diagram failed the final syntax check at " ++ fault ++
  ".\nReturn only the diagram text, one statement per line.\n"

/-- A text at a stage. -/
def evaluate (p : Pipeline) (stage : Stage) (text : String) : Evaluation :=
  match stage with
  | .linting =>
    let report := Lint.report p.lint text
    if report.isOk then .passed report.warnings else .rejected report.feedback
  | .validatingIds =>
    let report := Ids.check p.ids text
    if report.isOk then .passed [] else .rejected report.feedback
  | .validatingSyntax =>
    match p.syntaxFault? text with
    | none => .passed []
    | some fault => .rejected (syntaxFeedback fault)
  | .accepted | .failed => .passed []

/-- Why a text is turned down: the stage that it did not pass, and the feedback. -/
structure Rejection where
  stage : Stage
  feedback : String
  deriving DecidableEq, Repr

/-- A text at several stages in turn: the warnings of all of them, or the first rejection. -/
def walk (p : Pipeline) (text : String) : List Stage → Except Rejection (List Lint.Violation)
  | [] => .ok []
  | stage :: rest =>
    match p.evaluate stage text with
    | .passed warnings => (p.walk text rest).map (warnings ++ ·)
    | .rejected feedback => .error ⟨stage, feedback⟩

/-- A text at all the stages that it has to pass. -/
def validate (p : Pipeline) (text : String) : Except Rejection (List Lint.Violation) :=
  p.walk text [.linting, .validatingIds, .validatingSyntax]

end Pipeline

end Whiteboard
