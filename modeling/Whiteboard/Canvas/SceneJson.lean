import Whiteboard.Canvas.ElementJson
import Whiteboard.Canvas.Scene

/-!
# Scenes as JSON
-/

namespace Whiteboard

open Json

namespace Scene

/-- The scene that a value describes. -/
def ofJson? (j : Json) : Option Scene := do
  let f ← j.toFields? ["elements", "viewport_width", "viewport_height", "zoom", "pan_x", "pan_y"]
  return {
    elements := ← f.required "elements" (toList? Element.ofJson?)
    viewport := {
      width := ← f.required "viewport_width" toSingle?
      height := ← f.required "viewport_height" toSingle?
      zoom := ← f.required "zoom" toSingle?
      panX := ← f.required "pan_x" toSingle?
      panY := ← f.required "pan_y" toSingle? } }

/-- The scene that a text spells. -/
def parse? (text : String) : Option Scene := (Json.parse? text).bind ofJson?

/-- A scene as a value. -/
def toJson (s : Scene) : Json :=
  record [("elements", list Element.toJson s.elements), ("viewport_width", single s.viewport.width),
    ("viewport_height", single s.viewport.height), ("zoom", single s.viewport.zoom),
    ("pan_x", single s.viewport.panX), ("pan_y", single s.viewport.panY)]

/-- A scene as a text on one line. -/
def render (s : Scene) : String := s.toJson.compact

end Scene

end Whiteboard
