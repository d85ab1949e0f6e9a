import Whiteboard.Json.Reader

/-!
# Decoding JSON

Decoders are strict: nothing is converted but an integer to a floating point number. A record is an object, in which
unknown names do not matter and no known name may come twice, or an array of its fields in order.
-/

namespace Whiteboard.Json

/-- The text of a string. -/
def toText? : Json → Option String
  | string s => some s
  | _ => none

/-- A truth value. -/
def toBool? : Json → Option Bool
  | bool b => some b
  | _ => none

/-- The numeral of a number. -/
def toNumeral? : Json → Option Numeral
  | number n => some n
  | _ => none

/-- A single precision number. -/
def toSingle? (j : Json) : Option Float32 := j.toNumeral?.bind (·.toSingle?)

/-- A double precision number. -/
def toDouble? (j : Json) : Option Float := j.toNumeral?.bind (·.toFloat?)

/-- A signed integer of 32 bits. -/
def toInt32? (j : Json) : Option Int := j.toNumeral?.bind (·.toIntWithin? (-2147483648) 2147483647)

/-- An unsigned integer of the given number of bits. -/
def toWord? (bits : Nat) (j : Json) : Option Nat := (j.toNumeral?.bind (·.toIntWithin? 0 (maxWord bits))).map (·.toNat)

/-- A list of values. -/
def toList? (decode : Json → Option α) : Json → Option (List α)
  | array items => items.mapM decode
  | _ => none

/-- A value that may be null. -/
def toOption? (decode : Json → Option α) : Json → Option (Option α)
  | null => some none
  | j => (decode j).map some

/-- A choice by name: the name as a string, or as the only name of an object whose value is null. -/
def toChoice? (ofName? : String → Option α) : Json → Option α
  | string name => ofName? name
  | object [(some name, null)] => ofName? name
  | _ => none

mutual

/-- Whether every part of a value is sound: no text is broken, no number is out of range, and arrays and objects are
nested at most `depth` deep. -/
def isSound (depth : Nat) : Json → Bool
  | null | bool _ | string _ => true
  | brokenString => false
  | number n => n.isWord || n.toDouble?.isSome
  | array items => match depth with
    | 0 => false
    | depth + 1 => areSound depth items
  | object members => match depth with
    | 0 => false
    | depth + 1 => areSoundMembers depth members

/-- Whether every item is sound. -/
def areSound (depth : Nat) : List Json → Bool
  | [] => true
  | item :: items => isSound depth item && areSound depth items

/-- Whether every member is sound, its name included. -/
def areSoundMembers (depth : Nat) : List (Option String × Json) → Bool
  | [] => true
  | (name?, value) :: members => name?.isSome && isSound depth value && areSoundMembers depth members

end

/-- Whether the first of two names comes before the second in an object. -/
def namesInOrder (first second : String) : Json → Bool
  | object members =>
    match members.find? fun m => m.1 == some first || m.1 == some second with
    | some m => m.1 == some first
    | none => false
  | _ => false

/-- A record that is being decoded: its fields by name, and whether it was given as an array. -/
structure Fields where
  field? : String → Option Json
  positional : Bool

/-- The first value with the given name. -/
def memberNamed? (name : String) (members : List (Option String × Json)) : Option Json :=
  (members.find? fun m => m.1 == some name).map (·.2)

/-- The fields of a record with the given names: those of an object with proper names none of which comes twice, or the
items of an array that has no more items than there are names. -/
def toFields? (names : List String) : Json → Option Fields
  | object members =>
    if members.all (·.1.isSome) && names.all fun name => (members.filter fun m => m.1 == some name).length ≤ 1 then
      some ⟨fun name => memberNamed? name members, false⟩
    else none
  | array items =>
    if items.length ≤ names.length then some ⟨fun name => (names.zip items).lookup name, true⟩ else none
  | _ => none

namespace Fields

/-- A field that must be there. -/
def required (f : Fields) (name : String) (decode : Json → Option α) : Option α := (f.field? name).bind decode

/-- A field that may be null or, in an object, absent. -/
def optional (f : Fields) (name : String) (decode : Json → Option α) : Option (Option α) :=
  match f.field? name with
  | some value => value.toOption? decode
  | none => if f.positional then none else some none

/-- A field that stands for `default` where it is absent. -/
def defaulted (f : Fields) (name : String) (default : α) (decode : Json → Option α) : Option α :=
  match f.field? name with
  | some value => decode value
  | none => some default

end Fields

end Whiteboard.Json
