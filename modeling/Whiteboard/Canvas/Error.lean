import Whiteboard.Diagram.Spec

/-!
# What can go wrong on a canvas
-/

namespace Whiteboard

/-- Why a record could not be kept or found. -/
inductive StoreError where
  /-- The place where records are kept failed. -/
  | io
  /-- A text is no record. -/
  | unreadable
  /-- The place where records are kept refused one. -/
  | rejected (reason : String)
  deriving DecidableEq, Repr

/-- What is said of a failure to keep a record. -/
def StoreError.message : StoreError → String
  | io => "IO error"
  | unreadable => "Serialization error"
  | rejected reason => "Write rejected: " ++ reason

/-- Why an operation on a canvas failed. -/
inductive CanvasError where
  | elementNotFound (id : String)
  | invalidOperation (detail : String)
  /-- A text does not describe a scene. -/
  | unreadable
  /-- No elements were made from a diagram with this many nodes. -/
  | noElements (nodes : Nat)
  /-- The description of a diagram breaks rules. -/
  | rejectedSpec (violations : List Spec.Violation)
  | store (cause : StoreError)
  deriving DecidableEq, Repr

/-- What is said of a failed operation. -/
def CanvasError.message : CanvasError → String
  | elementNotFound id => "Element not found: " ++ id
  | invalidOperation detail => "Invalid operation on element: " ++ detail
  | unreadable => "Serialization error"
  | noElements nodes => "Shape conversion produced no elements for " ++ toString nodes ++ " structural nodes"
  | rejectedSpec violations => Spec.rejectionMessage violations
  | store cause => "Store error: " ++ cause.message

end Whiteboard
