import Whiteboard.Canvas.Apply
import Whiteboard.Canvas.ContextJson
import Whiteboard.Generation.Proposal

/-!
# Requests to a generator

A call asks for a first proposal, or for another one in the place of a text that was found wanting. A generator answers
every call after some time.
-/

namespace Whiteboard

open Json

/-- What a generator is told of an edit. -/
structure Request where
  /-- What the user said. -/
  transcript : String
  /-- How the diagram will be put on the canvas. -/
  mode : ApplyMode
  context : Context
  deriving DecidableEq, Repr

/-- A call of a generator. -/
inductive Call where
  | propose (request : Request)
  /-- The text that was found wanting, and why. -/
  | revise (request : Request) (previous feedback : String)
  deriving DecidableEq, Repr

namespace Request

/-- A request as members of a value. -/
def members (r : Request) : List (String × Json) :=
  [("transcript", string r.transcript), ("mode", string r.mode.name), ("context", r.context.toJson)]

end Request

namespace Call

/-- A call as it is sent. -/
def toJson : Call → Json
  | propose r => record (("action", string "propose") :: r.members)
  | revise r previous feedback =>
    record (("action", string "revise") :: r.members ++
      [("previousDiagram", string previous), ("feedback", string feedback)])

end Call

/-- What comes of a call, and after how many milliseconds. -/
structure Reply where
  delay : Nat
  answer : Answer

/-- A way to answer calls one after the other, with a state of type `σ` that each call may change. -/
abbrev Generator (σ : Type) := σ → Call → Reply × σ

end Whiteboard
