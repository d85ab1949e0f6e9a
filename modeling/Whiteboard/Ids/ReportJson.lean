import Whiteboard.Ids.Check
import Whiteboard.Json.Value

/-!
# Id reports as JSON
-/

namespace Whiteboard.Ids

open Json

/-- An error as a value. -/
def Error.toJson (e : Error) : Json :=
  record [("code", string e.code.name), ("message", string e.message), ("id", string e.id), ("line", nat e.line)]

/-- What a report suggests, as a value. -/
def Report.suggestionsJson (r : Report) : Json :=
  record [("nodeIdRenames", record (r.renames.map fun (old, new) => (old, string new))),
    ("edgeIds", list string r.edgeIds)]

/-- A report as a value; if it suggests nothing it has no such member. -/
def Report.toJson (r : Report) : Json :=
  record ([("ok", bool r.isOk), ("errors", list Error.toJson r.errors)] ++
    if r.hasSuggestions then [("suggestions", r.suggestionsJson)] else [])

end Whiteboard.Ids
