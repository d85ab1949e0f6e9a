import Whiteboard.Canvas.Convert
import Whiteboard.Canvas.Merge
import Whiteboard.Canvas.Record
import Whiteboard.Canvas.Store
import Whiteboard.Ids.Edge

/-!
# Putting a diagram text on a canvas

A text is merged with the canvas if the mode asks for it, converted to elements with the ids and labels of the text,
moved to the middle of the view, recorded, and put on the canvas in one change. If any step fails there is no new store
and no new state of the records.
-/

namespace Whiteboard

/-- What happens to the diagram that is on the canvas already. -/
inductive ApplyMode where
  /-- The new diagram takes its place. -/
  | replaceCanvas
  /-- The new diagram is merged with it. -/
  | incremental
  deriving DecidableEq, Repr

namespace ApplyMode

/-- The name of a mode in data. -/
def name : ApplyMode → String
  | replaceCanvas => "replaceCanvas"
  | incremental => "incremental"

/-- The name of a mode for a reader. -/
def text : ApplyMode → String
  | replaceCanvas => "replace"
  | incremental => "incremental"

/-- The word for a mode as it is looked up: without blanks around it, and with ASCII letters in lower case. -/
def wordOf (text : String) : String := String.ofList ((Text.trim text.toList).map Char.toLower)

/-- The mode that a text names. -/
def ofText? (text : String) : Except CanvasError ApplyMode :=
  match wordOf text with
  | "replace" | "replace_canvas" => .ok replaceCanvas
  | "incremental" | "merge" => .ok incremental
  | word => .error (.invalidOperation ("unknown apply mode `" ++ word ++ "`"))

end ApplyMode

namespace Apply

/-- The label that a document gives to a node or a group; a node without one shows its id. -/
def labelOf? (doc : Document) (id : String) : Option String :=
  ((doc.groups.reverse.find? (·.id == id)).map (·.label)).or
    ((doc.node? id).map fun n => n.label?.getD n.id)

/-- The id of the shape that a text with the given id is bound to. -/
def ownerOf? (id : String) : Option String :=
  let start := Remap.textPrefix.toList
  if start.isPrefixOf id.toList then some (String.ofList (id.toList.drop start.length)) else none

/-- The element with its content replaced, if it is a text. -/
def withContent (content : String) (e : Element) : Element :=
  match e.kind with
  | .text _ container? fontSize => { e with kind := .text content container? fontSize }
  | _ => e

/-- The text of a node or a group shows its label instead of its id. -/
def relabel (doc : Document) (e : Element) : Element :=
  match (ownerOf? e.id).bind (labelOf? doc) with
  | some label => withContent label e
  | none => e

/-- The elements for a document in the middle of the view, with the new ids of those that have one. -/
def elementsOf (convert : Skeleton → List Element) (view : Viewport) (doc : Document) :
    Except CanvasError Remapped := do
  let edgeIds ← (allocateEdgeIds [] doc.pairs).mapError fun e => .invalidOperation e.message
  let skeleton := Skeleton.ofDocument doc edgeIds
  let converted := convert skeleton
  if converted.isEmpty then throw (.noElements skeleton.nodes.length)
  let remapped := remap converted skeleton.intended
  return { remapped with elements := Scene.recentre view (remapped.elements.map (relabel doc)) }

/-- The text that is put on a canvas, and what it changes where it has been merged. -/
def textFor (mode : ApplyMode) (canvas : Canvas) (text : String) : String × Option Diff :=
  if mode = .incremental && !canvas.scene.isEmpty then
    let snapshot := Snapshot.ofCanvas canvas.scene canvas.diagramText?
    (mergedText snapshot text, some (Diff.between snapshot text))
  else (text, none)

/-- What is told of a text that has been put on a canvas. -/
structure Outcome where
  /-- The text that is on the canvas, after any merge. -/
  diagramText : String
  elementCount : Nat
  /-- The new id of each converted element that has one. -/
  mapping : List (String × String)
  /-- What has changed, if the text was merged. -/
  diff? : Option Diff
  deriving DecidableEq, Repr

end Apply

/-- A way to put texts on canvases. -/
structure Applier (σ : Type) where
  convert : Skeleton → List Element
  records : RecordStore σ
  /-- The key under which the canvas is recorded. -/
  key : String
  mode : ApplyMode := .replaceCanvas

/-- What there is after a text has been put on a canvas. -/
structure Applied (σ : Type) where
  outcome : Apply.Outcome
  store : Store
  notices : List Notice
  records : σ
  deriving DecidableEq, Repr

/-- Puts a text on a canvas at the given time. -/
def Applier.apply (a : Applier σ) (now : Nat) (store : Store) (records : σ) (text : String) :
    Except CanvasError (Applied σ) := do
  let transaction := Transaction.begin store
  let (text, diff?) := Apply.textFor a.mode transaction.staged text
  let made ← Apply.elementsOf a.convert transaction.staged.scene.viewport (Document.parse text)
  let records ← (a.records.write records a.key ⟨made.elements, text, now⟩).mapError .store
  let (store, notices) := (transaction.stage (Canvas.commit made.elements text)).succeed
  return { outcome := ⟨text, made.elements.length, made.mapping, diff?⟩, store, notices, records }

end Whiteboard
