import Whiteboard.Lint.Check

/-!
# Lint reports

A report is good if no violation is an error. Its feedback lists every violation, warnings included, on a line of its
own.
-/

namespace Whiteboard.Lint

/-- The violations of a text in the order of the checks. -/
structure Report where
  violations : List Violation
  deriving DecidableEq, Repr

/-- The report on a text. -/
def report (options : Options) (text : String) : Report := ⟨violations options text⟩

/-- A violation as a line of feedback. -/
def Violation.feedbackLine (v : Violation) : String :=
  "- [" ++ v.fault.code.name ++ "]" ++
  v.location?.elim "" (fun l => " line " ++ toString l.line) ++
  ": " ++ v.fault.message ++
  v.fault.hint?.elim "" (fun hint => " (fix: " ++ hint ++ ")") ++ "\n"

namespace Report

/-- The violations that block acceptance. -/
def errors (r : Report) : List Violation := r.violations.filter (·.isError)

/-- The violations that do not. -/
def warnings (r : Report) : List Violation := r.violations.filter (!·.isError)

/-- No violation blocks acceptance. -/
def isOk (r : Report) : Bool := !r.violations.any (·.isError)

/-- The violations, phrased for whoever wrote the text. -/
def feedback (r : Report) : String :=
  "The diagram text broke these rules:\n" ++ String.join (r.violations.map (·.feedbackLine))

end Report

end Whiteboard.Lint
