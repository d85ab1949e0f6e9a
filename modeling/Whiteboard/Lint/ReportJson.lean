import Whiteboard.Json.Value
import Whiteboard.Lint.Report

/-!
# Lint reports as JSON
-/

namespace Whiteboard.Lint

open Json

/-- A place as a value; without a column it has no such member. -/
def Location.toJson (l : Location) : Json := record ([("line", nat l.line)] ++ optionalMember "column" nat l.column?)

/-- A violation as a value; what is absent has no member. -/
def Violation.toJson (v : Violation) : Json :=
  record ([("code", string v.fault.code.name), ("message", string v.fault.message),
      ("severity", string v.fault.severity.name)] ++
    optionalMember "location" Location.toJson v.location? ++ optionalMember "hint" string v.fault.hint?)

end Whiteboard.Lint
