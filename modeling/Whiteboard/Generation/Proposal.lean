import Whiteboard.Diagram.Spec
import Whiteboard.Text.Duration

/-!
# What a generator answers

A generator proposes a diagram, as a text or as a description, or its call fails.
-/

namespace Whiteboard

/-- A diagram that a generator proposes. -/
inductive Proposal where
  | spec (s : Spec)
  | text (t : String)
  deriving DecidableEq, Repr

/-- Why a call of a generator failed. -/
inductive GenerationError where
  /-- The call took longer than this many milliseconds. -/
  | timedOut (limit : Nat)
  /-- A newer request took the place of this one. -/
  | cancelled
  /-- There was no connection, or it broke. -/
  | transport
  /-- The answer has a status that is not success. -/
  | status (code : Nat) (body : String)
  /-- The answer is no JSON, or does not have the form of an answer. -/
  | undecodable
  /-- There is no proper address to send requests to. -/
  | invalidUrl (reason : String)
  /-- The answer holds no diagram. -/
  | malformed (reason : String)
  deriving DecidableEq, Repr

namespace GenerationError

/-- What is said of a failed call. -/
def message : GenerationError → String
  | timedOut limit => "generator call timed out after " ++ Text.duration limit
  | cancelled => "generator call was cancelled"
  | transport => "generator HTTP request failed"
  | status code body => "generator returned status " ++ toString code ++ ": " ++ body
  | undecodable => "failed to parse generator payload"
  | invalidUrl reason => "invalid generator URL: " ++ reason
  | malformed reason => "malformed generator response: " ++ reason

/-- Another try may succeed: the connection failed, or the status tells of a fault of the server. -/
def isRetryable : GenerationError → Bool
  | transport => true
  | status code _ => 500 ≤ code
  | _ => false

/-- The call was given up rather than failed. -/
def isCancelled : GenerationError → Bool
  | cancelled => true
  | _ => false

end GenerationError

/-- What comes of a call. -/
abbrev Answer := Except GenerationError Proposal

end Whiteboard
