import Whiteboard.Diagram.SpecJson
import Whiteboard.Generation.Backoff
import Whiteboard.Generation.Request

/-!
# Calls over a network

A call is sent as one JSON value, and the answer is read from the status and the body of the response. A call whose
connection breaks, or that meets a fault of the server, is sent again after a wait, as often as the policy allows.
-/

namespace Whiteboard

/-- What a server answers to a request. -/
structure Response where
  status : Nat
  body : String
  deriving DecidableEq, Repr

/-- A way to send bodies one after the other, with a state of type `τ`; there is no response if the connection fails. -/
abbrev Transport (τ : Type) := τ → String → Option Response × τ

namespace Response

/-- The request has been granted. -/
def isSuccess (r : Response) : Bool := 200 ≤ r.status && r.status < 300

/-- The body as it is received. Some statuses say that there is none. -/
def content (r : Response) : String := if r.status = 204 || r.status = 304 then "" else r.body

/-- The greatest number of characters of a body that an error quotes. -/
def maxQuoted : Nat := 512

/-- The start of a body, with a mark where it has been cut. -/
def excerpt (body : String) : String :=
  if maxQuoted < body.length then String.ofList (body.toList.take maxQuoted) ++ "…" else body

end Response

/-- The form of an answer: a text, a description, or both. -/
structure Payload where
  diagram? : Option String
  spec? : Option Spec
  deriving DecidableEq, Repr

namespace Payload

open Json

/-- The answer that a value describes. -/
def ofJson? (j : Json) : Option Payload := do
  let f ← j.toFields? ["diagram", "spec"]
  return {
    diagram? := ← f.defaulted "diagram" none (toOption? toText?)
    spec? := ← f.defaulted "spec" none (toOption? Spec.ofJson?) }

/-- The answer that a text spells. -/
def parse? (text : String) : Option Payload := (Json.parse? text).bind ofJson?

/-- The proposal in an answer; a description is preferred to a text, and a blank text is none. -/
def proposal (p : Payload) : Answer :=
  match p.spec?, p.diagram? with
  | some spec, _ => .ok (.spec spec)
  | none, some text =>
    if text.toList.all Text.isBlank then .error (.malformed "`diagram` is empty") else .ok (.text text)
  | none, none => .error (.malformed "response has neither `diagram` nor `spec`")

end Payload

/-- What comes of one request. -/
def Answer.ofResponse : Option Response → Answer
  | none => .error .transport
  | some r =>
    if r.isSuccess then
      match Payload.parse? r.content with
      | some payload => payload.proposal
      | none => .error .undecodable
    else .error (.status r.status (Response.excerpt r.content))

/-- Another try may lead to a better answer. -/
def Answer.isRetryable : Answer → Bool
  | .error e => e.isRetryable
  | .ok _ => false

/-- What happens on the way to an answer. -/
inductive Delivery.Event where
  | request (body : String)
  /-- Nothing is done for this many milliseconds. -/
  | wait (ms : Nat)
  deriving DecidableEq, Repr

/-- What has come of a call. -/
structure Delivery (τ : Type) where
  answer : Answer
  /-- The requests and the waits between them, in order. -/
  events : List Delivery.Event
  state : τ

namespace Delivery

/-- The answer to a call for which no try is left to begin with. -/
def unanswered : Answer := .error (.malformed "retry loop ended without a response")

/-- As many tries as are left, after the given number of earlier ones. One that may be mended by another is followed by a
wait and the next, unless it is the last. -/
def sendFrom (policy : RetryPolicy) (transport : Transport τ) (body : String) (attempt : Nat) :
    Nat → τ → Delivery τ
  | 0, state => ⟨unanswered, [], state⟩
  | left + 1, state =>
    let (response?, state) := transport state body
    let answer := Answer.ofResponse response?
    if answer.isRetryable && left != 0 then
      let rest := sendFrom policy transport body (attempt + 1) left state
      { rest with events := .request body :: .wait (policy.delay attempt) :: rest.events }
    else ⟨answer, [.request body], state⟩

end Delivery

/-- Sends a call; there is always at least one try. -/
def Call.send (call : Call) (policy : RetryPolicy) (transport : Transport τ) (state : τ) : Delivery τ :=
  Delivery.sendFrom policy transport call.toJson.compact 0 (max policy.maxAttempts 1) state

end Whiteboard
