import Whiteboard.Canvas.Scene

/-!
# The canvas store

A store holds a scene and the diagram text it was made from, and counts its changes. Every change is announced to all
subscribers in the order in which they came. A transaction works on a copy: if it succeeds, the copy replaces what the
store holds in one change, and if it fails, nothing happens.
-/

namespace Whiteboard

/-- What a store holds. -/
structure Canvas where
  scene : Scene := {}
  diagramText? : Option String := none
  deriving DecidableEq, Repr

namespace Canvas

/-- Another scene, with the same text. -/
def setScene (scene : Scene) (c : Canvas) : Canvas := { c with scene }

/-- Other elements, and the text they were made from. -/
def commit (elements : List Element) (text : String) (c : Canvas) : Canvas :=
  { scene := c.scene.setElements elements, diagramText? := some text }

end Canvas

/-- What a subscriber is told of a change. -/
structure Notice where
  subscriber : Nat
  scene : Scene
  revision : Nat
  deriving DecidableEq, Repr

/-- A canvas that several parties share. -/
structure Store where
  canvas : Canvas := {}
  /-- The number of changes so far. -/
  revision : Nat := 0
  /-- The subscribers, in the order in which they came. -/
  subscribers : List Nat := []
  /-- The number of the next subscriber. -/
  nextSubscriber : Nat := 0
  deriving DecidableEq, Repr

namespace Store

/-- A store that holds a scene and no text. -/
def ofScene (scene : Scene) : Store := { canvas := { scene } }

/-- One change, and what the subscribers are told of it. -/
def change (s : Store) (f : Canvas → Canvas) : Store × List Notice :=
  let s := { s with canvas := f s.canvas, revision := s.revision + 1 }
  (s, s.subscribers.map fun n => ⟨n, s.canvas.scene, s.revision⟩)

/-- A new subscriber, who gets a number that nobody has had before. -/
def subscribe (s : Store) : Nat × Store :=
  (s.nextSubscriber,
    { s with subscribers := s.subscribers ++ [s.nextSubscriber], nextSubscriber := s.nextSubscriber + 1 })

/-- The store without a subscriber, and whether there was one with that number. -/
def unsubscribe (s : Store) (n : Nat) : Bool × Store :=
  (s.subscribers.contains n, { s with subscribers := s.subscribers.filter (· != n) })

end Store

/-- A transaction under way: the store, which others may change in the meantime, the copy that is worked on, and what
has been announced since it began. -/
structure Transaction where
  store : Store
  staged : Canvas
  notices : List Notice := []
  deriving DecidableEq, Repr

namespace Transaction

/-- A transaction begins with a copy of what the store holds. -/
def begin (s : Store) : Transaction := { store := s, staged := s.canvas }

/-- A change of the copy, which nobody sees. -/
def stage (t : Transaction) (f : Canvas → Canvas) : Transaction := { t with staged := f t.staged }

/-- A change of the store by someone else. -/
def outside (t : Transaction) (f : Canvas → Canvas) : Transaction :=
  let (store, notices) := t.store.change f
  { t with store, notices := t.notices ++ notices }

/-- The copy replaces what the store holds, whatever has been written there in the meantime. -/
def succeed (t : Transaction) : Store × List Notice :=
  let (store, notices) := t.store.change fun _ => t.staged
  (store, t.notices ++ notices)

/-- The copy is given up. -/
def fail (t : Transaction) : Store × List Notice := (t.store, t.notices)

end Transaction

end Whiteboard
