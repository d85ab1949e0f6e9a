import Whiteboard.Canvas.Scene
import Whiteboard.Diagram.Spec
import Whiteboard.Text.Blank

/-!
# Giving converted elements their own ids back

A converter gives every element an id of its own making and puts the id it should have into the text bound to it.
`remap` restores those ids: containers first, then nodes, then the arrows between them, then the texts. Every id that is
given is unique among all elements, those that keep the converter's ids included.
-/

namespace Whiteboard

namespace Remap

/-- An edge as the elements were made from it. -/
structure Edge where
  id : String
  source : String
  target : String
  deriving DecidableEq, Repr

/-- The ids that the elements should have. -/
structure Intended where
  /-- The ids of nodes and groups. -/
  shapes : List String
  edges : List Edge
  deriving DecidableEq, Repr

/-- The ids that are taken, and the new id of each element that has one, each element once. -/
structure Renaming where
  used : List String
  mapping : List (String × String) := []
  deriving DecidableEq, Repr

namespace Renaming

/-- The new id of an element. -/
def new? (r : Renaming) (id : String) : Option String := r.mapping.lookup id

/-- The new id of an element, or the one it has. -/
def resolve (r : Renaming) (id : String) : String := (r.new? id).getD id

/-- The id itself and its numbered variants, one more of them than there are taken ids. -/
def candidates (used : List String) (wanted : String) : List String :=
  wanted :: (List.range used.length).map fun k => wanted ++ "_" ++ toString (k + 2)

/-- The first candidate that is not taken. -/
def unique (used : List String) (wanted : String) : String :=
  ((candidates used wanted).find? (!used.contains ·)).getD wanted

/-- The element `current` gives up its id and gets the wanted one, or the first variant of it that is free. -/
def rename (r : Renaming) (current wanted : String) : Renaming :=
  let free := r.used.filter (· != current)
  let id := unique free wanted
  ⟨id :: free, (current, id) :: r.mapping.filter (·.1 != current)⟩

/-- Several elements renamed in turn. -/
def renameAll (r : Renaming) (wishes : List (String × String)) : Renaming :=
  wishes.foldl (fun r (current, wanted) => r.rename current wanted) r

end Renaming

/-- The trimmed contents of the texts bound to an element, in order. -/
def boundTexts (elements : List Element) (id : String) : List String :=
  (elements.filter (·.container? == some id)).filterMap fun e =>
    e.text?.map fun t => String.ofList (Text.trim t.toList)

/-- The id for a container: the first of its texts that is the id of a shape. -/
def containerWish? (shapes texts : List String) : Option String := texts.find? shapes.contains

/-- The id for a node: the first of its texts that is the id of a shape, else the first that could be an id. -/
def nodeWish? (shapes texts : List String) : Option String :=
  (texts.find? shapes.contains).or (texts.find? isSemanticId)

/-- The wishes of the elements among `chosen` that have one. -/
def shapeWishes (elements chosen : List Element) (wish? : List String → Option String) : List (String × String) :=
  chosen.filterMap fun e => (wish? (boundTexts elements e.id)).map (e.id, ·)

/-- The list without its first item that satisfies `p`, and that item. -/
def extract? (p : α → Bool) : List α → Option (α × List α)
  | [] => none
  | x :: xs => if p x then some (x, xs) else (extract? p xs).map fun (y, ys) => (y, x :: ys)

/-- The wishes of the arrows: each takes the first edge between its two ends that is left. -/
def arrowWishes (r : Renaming) (edges : List Edge) : List Element → List (String × String)
  | [] => []
  | e :: rest =>
    match e.ends? with
    | none => arrowWishes r edges rest
    | some (start, finish) =>
      match extract? (fun edge => edge.source == r.resolve start && edge.target == r.resolve finish) edges with
      | none => arrowWishes r edges rest
      | some (edge, left) => (e.id, edge.id) :: arrowWishes r left rest

/-- What the id of a text begins with. -/
def textPrefix : String := "text_"

/-- The wishes of the texts whose containers have new ids. -/
def textWishes (r : Renaming) (elements : List Element) : List (String × String) :=
  elements.filterMap fun e => (e.container?.bind r.new?).map fun owner => (e.id, textPrefix ++ owner)

/-- The new ids of all elements. -/
def renamingOf (elements : List Element) (intended : Intended) : Renaming :=
  let r : Renaming := ⟨elements.map (·.id), []⟩
  let r := r.renameAll (shapeWishes elements (elements.filter (·.isContainer)) (containerWish? intended.shapes))
  let r := r.renameAll (shapeWishes elements (elements.filter (·.isNode)) (nodeWish? intended.shapes))
  let r := r.renameAll (arrowWishes r intended.edges elements)
  r.renameAll (textWishes r elements)

/-- The kind with its references renamed. -/
def renamedKind (r : Renaming) : Element.Kind → Element.Kind
  | .text content container? fontSize => .text content (container?.map r.resolve) fontSize
  | .arrow start? finish? dashed => .arrow (start?.map r.resolve) (finish?.map r.resolve) dashed
  | kind => kind

/-- The element with its id and its references renamed. -/
def renamedElement (r : Renaming) (e : Element) : Element :=
  { e with
    id := r.resolve e.id
    kind := renamedKind r e.kind
    bound := e.bound.map fun b => { b with id := r.resolve b.id } }

end Remap

/-- The elements with their own ids, and the new id of each that has one. -/
structure Remapped where
  elements : List Element
  mapping : List (String × String)
  deriving DecidableEq, Repr

/-- The elements with the ids they should have, wherever these can be told. -/
def remap (elements : List Element) (intended : Remap.Intended) : Remapped :=
  let r := Remap.renamingOf elements intended
  ⟨elements.map (Remap.renamedElement r), r.mapping⟩

end Whiteboard
