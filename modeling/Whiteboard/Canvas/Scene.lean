import Whiteboard.Canvas.Element

/-!
# Scenes

The elements of a canvas in paint order and the part of it that is in view.
-/

namespace Whiteboard

/-- The part of the canvas in view: the size of the view, how much it is enlarged, and how far it is shifted. -/
structure Viewport where
  width : Float32 := 800
  height : Float32 := 600
  zoom : Float32 := 1
  panX : Float32 := 0
  panY : Float32 := 0
  deriving DecidableEq, Repr

/-- The canvas point in the middle of the view; a zoom that is not positive counts as one. -/
def Viewport.center (v : Viewport) : Point :=
  let zoom := if 0 < v.zoom then v.zoom else 1
  ⟨(v.width / 2 - v.panX) / zoom, (v.height / 2 - v.panY) / zoom⟩

/-- The elements in paint order and the view of them. -/
structure Scene where
  elements : List Element := []
  viewport : Viewport := {}
  deriving DecidableEq, Repr

namespace Scene

/-- An empty scene with a view of the given size. -/
def ofSize (width height : Float32) : Scene := { viewport := { width, height } }

/-- The scene with one more element, on top of the others. -/
def add (s : Scene) (e : Element) : Scene := { s with elements := s.elements ++ [e] }

/-- The first element with the given id. -/
def element? (s : Scene) (id : String) : Option Element := s.elements.find? (·.id == id)

/-- The first element with the given id, and the scene without it. -/
def remove? (s : Scene) (id : String) : Option (Element × Scene) :=
  (s.element? id).map fun e => (e, { s with elements := s.elements.eraseP (·.id == id) })

/-- The list with its first element of the given id changed. -/
def changeFirst (id : String) (change : Element → Element) : List Element → List Element
  | [] => []
  | e :: rest => if e.id == id then change e :: rest else e :: changeFirst id change rest

/-- The scene with its first element of the given id changed. -/
def modify (s : Scene) (id : String) (change : Element → Element) : Scene :=
  { s with elements := changeFirst id change s.elements }

/-- The scene with other elements in the same view. -/
def setElements (s : Scene) (elements : List Element) : Scene := { s with elements }

/-- The content of the first text that is bound to the given element. -/
def boundText? (s : Scene) (container : String) : Option String :=
  (s.elements.find? (·.container? == some container)).bind (·.text?)

/-- That content, or nothing. -/
def labelOf (s : Scene) (id : String) : String := (s.boundText? id).getD ""

/-- The scene with a view of another size. -/
def resize (s : Scene) (width height : Float32) : Scene :=
  { s with viewport.width := width, viewport.height := height }

/-- The scene with its view enlarged and shifted anew. -/
def aim (s : Scene) (zoom panX panY : Float32) : Scene :=
  { s with viewport.zoom := zoom, viewport.panX := panX, viewport.panY := panY }

/-- The scene without elements. -/
def clear (s : Scene) : Scene := { s with elements := [] }

/-- There are no elements. -/
def isEmpty (s : Scene) : Bool := s.elements.isEmpty

/-- The elements that stand for nodes, in order. -/
def nodes (s : Scene) : List Element := s.elements.filter (·.isNode)

/-- The elements that stand for groups, in order. -/
def containers (s : Scene) : List Element := s.elements.filter (·.isContainer)

/-- The box around all elements, if there are any. -/
def boundingBox? (elements : List Element) : Option Transform := Transform.boundingBox? (elements.map (·.transform))

/-- The elements moved together, so that the middle of the box around them is the middle of the view. -/
def recentre (v : Viewport) (elements : List Element) : List Element :=
  match boundingBox? elements with
  | none => elements
  | some box =>
    let dx := v.center.x - box.center.x
    let dy := v.center.y - box.center.y
    elements.map fun e => { e with transform := e.transform.moved dx dy }

end Scene

end Whiteboard
