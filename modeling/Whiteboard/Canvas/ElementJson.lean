import Whiteboard.Canvas.Element
import Whiteboard.Json.Decode
import Whiteboard.Json.Writer

/-!
# Elements as JSON

The kind of an element is a record of a `type` and, for texts and arrows, their `data`. The data may come before the
type; it is then read before its form is known, so every value in it has to be sound, also one that is not used.
-/

namespace Whiteboard

open Json

/-- The transform that a value describes. -/
def Transform.ofJson? (j : Json) : Option Transform := do
  let f ← j.toFields? ["x", "y", "width", "height", "z_index"]
  return {
    x := ← f.required "x" toSingle?
    y := ← f.required "y" toSingle?
    width := ← f.required "width" toSingle?
    height := ← f.required "height" toSingle?
    zIndex := ← f.required "z_index" toInt32? }

/-- A transform as a value. -/
def Transform.toJson (t : Transform) : Json :=
  record [("x", single t.x), ("y", single t.y), ("width", single t.width), ("height", single t.height),
    ("z_index", int t.zIndex)]

namespace Element

/-- The names of the kinds. -/
inductive KindName where
  | rectangle
  | diamond
  | ellipse
  | text
  | arrow
  deriving DecidableEq, Repr

/-- The kind that a name stands for. -/
def KindName.ofName? : String → Option KindName
  | "rectangle" => some rectangle
  | "diamond" => some diamond
  | "ellipse" => some ellipse
  | "text" => some text
  | "arrow" => some arrow
  | _ => none

/-- A value that must be null. -/
def toNothing? : Json → Option Unit
  | .null => some ()
  | _ => none

/-- The fields of a value that has to be an object. -/
def objectFields? (names : List String) (j : Json) : Option Fields :=
  match j with
  | .object _ => j.toFields? names
  | _ => none

/-- The kind with the given name and data: texts and arrows need an object, the others at most a null. -/
def Kind.ofData? (name : KindName) (data? : Option Json) : Option Kind := do
  match name with
  | .rectangle => (data?.elim (some ()) toNothing?).map fun _ => .rectangle
  | .diamond => (data?.elim (some ()) toNothing?).map fun _ => .diamond
  | .ellipse => (data?.elim (some ()) toNothing?).map fun _ => .ellipse
  | .text =>
    let f ← objectFields? ["text", "container_id", "font_size"] (← data?)
    return .text (← f.required "text" toText?) (← f.optional "container_id" toText?)
      (← f.required "font_size" toSingle?)
  | .arrow =>
    let f ← objectFields? ["start_binding", "end_binding", "dashed"] (← data?)
    return .arrow (← f.optional "start_binding" toText?) (← f.optional "end_binding" toText?)
      (← f.required "dashed" toBool?)

/-- The kind that a value describes, in an object or as an array of type and data. -/
def Kind.ofJson? (j : Json) : Option Kind := do
  let f ← j.toFields? ["type", "data"]
  let name ← f.required "type" (toChoice? KindName.ofName?)
  match f.field? "data" with
  | none => if f.positional then none else Kind.ofData? name none
  | some data =>
    if f.positional || j.namesInOrder "type" "data" || data.isSound 125 then Kind.ofData? name (some data) else none

/-- The reference that a value describes. -/
def Bound.ofJson? (j : Json) : Option Bound := do
  let f ← j.toFields? ["id", "type"]
  return { id := ← f.required "id" toText?, kind := ← f.required "type" (toChoice? BoundKind.ofName?) }

/-- The element that a value describes. -/
def ofJson? (j : Json) : Option Element := do
  let f ← j.toFields? ["id", "kind", "transform", "bound_elements", "group_ids"]
  return {
    id := ← f.required "id" toText?
    kind := ← f.required "kind" Kind.ofJson?
    transform := ← f.required "transform" Transform.ofJson?
    bound := ← f.defaulted "bound_elements" [] (toList? Bound.ofJson?)
    groupIds := ← f.defaulted "group_ids" [] (toList? toText?) }

/-- The data of a text or an arrow as a value. -/
def Kind.data? : Kind → Option Json
  | rectangle | diamond | ellipse => none
  | text content container? fontSize =>
    some (record [("text", string content), ("container_id", option string container?),
      ("font_size", single fontSize)])
  | arrow start? finish? dashed =>
    some (record [("start_binding", option string start?), ("end_binding", option string finish?),
      ("dashed", bool dashed)])

/-- A kind as a value. -/
def Kind.toJson (k : Kind) : Json := record ([("type", string k.name)] ++ optionalMember "data" (fun data => data) k.data?)

/-- A reference as a value. -/
def Bound.toJson (b : Bound) : Json := record [("id", string b.id), ("type", string b.kind.name)]

/-- An element as a value. -/
def toJson (e : Element) : Json :=
  record [("id", string e.id), ("kind", e.kind.toJson), ("transform", e.transform.toJson),
    ("bound_elements", list Bound.toJson e.bound), ("group_ids", list string e.groupIds)]

end Element

end Whiteboard
