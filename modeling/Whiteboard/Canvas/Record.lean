import Whiteboard.Canvas.ElementJson
import Whiteboard.Canvas.Error
import Whiteboard.Text.CharClass

/-!
# Records of a canvas

A record is what outlives a session: the elements, the diagram text they were made from and the time of the change. A
`RecordStore` keeps records by key over a state of any type; a write that fails leaves no new state, so nothing has been
kept. There is one store that holds the records themselves and one that holds their texts under file names.
-/

namespace Whiteboard

open Json

/-- What is kept of a canvas. -/
structure Record where
  elements : List Element
  diagramText : String
  /-- The time of the change in milliseconds. -/
  lastModified : Nat
  deriving DecidableEq, Repr

namespace Record

/-- The record that a value describes. -/
def ofJson? (j : Json) : Option Record := do
  let f ← j.toFields? ["elements", "diagramText", "lastModified"]
  return {
    elements := ← f.required "elements" (toList? Element.ofJson?)
    diagramText := ← f.required "diagramText" toText?
    lastModified := ← f.required "lastModified" (toWord? 64) }

/-- The record that a text spells. -/
def parse? (text : String) : Option Record := (Json.parse? text).bind ofJson?

/-- A record as a value. -/
def toJson (r : Record) : Json :=
  record [("elements", list Element.toJson r.elements), ("diagramText", string r.diagramText),
    ("lastModified", nat r.lastModified)]

/-- A record as a text over several lines. -/
def render (r : Record) : String := r.toJson.pretty

end Record

/-- A way to keep records by key, with what is kept in a state of type `σ`. -/
structure RecordStore (σ : Type) where
  write : σ → String → Record → Except StoreError σ
  read : σ → String → Except StoreError (Option Record)

/-- Values by key. -/
abbrev Entries (α : Type) := List (String × α)

/-- The entries with the value of one key set, the others as they were. -/
def Entries.set (entries : Entries α) (key : String) (value : α) : Entries α :=
  if entries.any (·.1 == key) then entries.map fun entry => if entry.1 == key then (key, value) else entry
  else entries ++ [(key, value)]

namespace RecordStore

/-- A store that holds the records themselves. -/
def memory : RecordStore (Entries Record) where
  write entries key record := .ok (entries.set key record)
  read entries key := .ok (entries.lookup key)

/-- The greatest number of bytes in the name of a file. -/
def maxFileName : Nat := 255

/-- A character that a file name keeps from its key. -/
def isFileNameChar (c : Char) : Bool := Text.isAlphanumeric c || c == '-' || c == '_'

/-- The name of the file for a key: the key with every other character replaced, and an ending. -/
def fileName (key : String) : String := key.map (fun c => if isFileNameChar c then c else '_') ++ ".json"

/-- A store that holds the text of each record in a file. There is no file with too long a name. -/
def files : RecordStore (Entries String) where
  write entries key record :=
    if maxFileName < (fileName key).utf8ByteSize then .error .io else .ok (entries.set (fileName key) record.render)
  read entries key :=
    match entries.lookup (fileName key) with
    | none => .ok none
    | some text =>
      match Record.parse? text with
      | some record => .ok (some record)
      | none => .error .unreadable

/-- A store in which every write fails. -/
def failing (cause : StoreError) : RecordStore σ where
  write _ _ _ := .error cause
  read _ _ := .ok none

end RecordStore

end Whiteboard
