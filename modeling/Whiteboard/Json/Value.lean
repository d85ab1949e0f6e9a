import Whiteboard.Number.Shortest

/-!
# JSON values

A JSON value as it is written: numbers keep their spelling, and objects keep their members in order, repeated names
included. A string with an unpaired surrogate is no text, but is told apart only where its text is asked for.
-/

namespace Whiteboard

/-- A JSON value. -/
inductive Json where
  | null
  | bool (b : Bool)
  | number (n : Numeral)
  | string (s : String)
  /-- A string that holds an unpaired surrogate. -/
  | brokenString
  | array (items : List Json)
  /-- A name is missing where it holds an unpaired surrogate. -/
  | object (members : List (Option String × Json))
  deriving Repr, Inhabited

namespace Json

/-- An object with proper names. -/
def record (members : List (String × Json)) : Json := object (members.map fun (name, value) => (some name, value))

/-- An integer. -/
def int (n : Int) : Json := number (.ofInt n)

/-- A number that is not negative. -/
def nat (n : Nat) : Json := int n

/-- A single precision number; what is not finite is written as null. -/
def single (x : Float32) : Json := (Shortest.numeral? x).elim null number

/-- A list of values. -/
def list (encode : α → Json) (items : List α) : Json := array (items.map encode)

/-- A value that may be absent. -/
def option (encode : α → Json) (value? : Option α) : Json := value?.elim null encode

/-- A member that is left out if its value is absent. -/
def optionalMember (name : String) (encode : α → Json) (value? : Option α) : List (String × Json) :=
  value?.elim [] fun value => [(name, encode value)]

end Json

end Whiteboard
