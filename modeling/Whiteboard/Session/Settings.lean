import Whiteboard.Address.Url
import Whiteboard.Canvas.Apply
import Whiteboard.Generation.Backoff
import Whiteboard.Generation.Proposal
import Whiteboard.Lint.Check
import Whiteboard.Schedule.Timing
import Whiteboard.Validation.Stage

/-!
# Settings

All settings have defaults, and some can be set by variables. A variable whose value is not of the right form leaves the
default in place.
-/

namespace Whiteboard

/-- What a session is told about its generator, its checks and its timing. -/
structure Settings where
  timing : Timing := {}
  /-- The address of the generator. -/
  url? : Option String := none
  /-- The time limit of one call in milliseconds. -/
  callLimit : Nat := 30000
  retry : RetryPolicy := {}
  /-- How requests name their sender. -/
  userAgent : String := "flowcanvas-agent/0.1.0"
  /-- The failures at a stage after which a run gives up. -/
  maxAttempts : Nat := defaultMaxAttempts
  lint : Lint.Options := {}
  /-- What is heard with less confidence than this does not count. -/
  minConfidence : Float32 := 0.5
  mode : ApplyMode := .replaceCanvas

namespace Settings

/-- A text without the blanks around it. -/
def trimmed (s : String) : String := String.ofList (Text.trim s.toList)

/-- The number that a text spells with ASCII digits and an optional plus sign, if it is at most `greatest`. -/
def number? (greatest : Nat) (s : String) : Option Nat :=
  let digits := match s.toList with
    | '+' :: rest => rest
    | all => all
  if digits.isEmpty || !digits.all Char.isDigit then none
  else
    let n := Text.natOfDigits digits
    if n ≤ greatest then some n else none

/-- The values of variables. -/
abbrev Variables := String → Option String

/-- The value of a variable as a number of 64 bits. -/
def Variables.word? (v : Variables) (name : String) : Option Nat := (v name).bind fun s => number? (maxWord 64) (trimmed s)

/-- The value of a variable as a positive number of 32 bits. -/
def Variables.positive? (v : Variables) (name : String) : Option Nat :=
  ((v name).bind fun s => number? (maxWord 32) (trimmed s)).filter (0 < ·)

/-- The value of a variable as a text that is not blank. -/
def Variables.text? (v : Variables) (name : String) : Option String := ((v name).map trimmed).filter (!·.isEmpty)

/-- The value of a variable as a mode. -/
def Variables.mode? (v : Variables) (name : String) : Option ApplyMode :=
  (v name).bind fun s => (ApplyMode.ofText? s).toOption

/-- The defaults, and over them what the variables say. -/
def ofVariables (v : Variables) : Settings :=
  let d : Settings := {}
  { d with
    url? := (v.text? "FLOWCANVAS_GENERATOR_URL").or d.url?
    callLimit := (v.word? "FLOWCANVAS_CALL_TIMEOUT_MS").getD d.callLimit
    maxAttempts := (v.positive? "FLOWCANVAS_MAX_ATTEMPTS").getD d.maxAttempts
    timing := { d.timing with
      baseWait := (v.word? "FLOWCANVAS_BASE_WAIT_MS").getD d.timing.baseWait
      cooldown := (v.word? "FLOWCANVAS_COOLDOWN_MS").getD d.timing.cooldown }
    mode := (v.mode? "FLOWCANVAS_APPLY_MODE").getD d.mode }

/-- The address of the generator in its normal form. -/
def endpoint? (s : Settings) : Except GenerationError Url :=
  match s.url? with
  | none => .error (.invalidUrl "no generator URL configured")
  | some text =>
    match Url.parse? text with
    | some url => .ok url
    | none => .error (.invalidUrl "not an absolute URL")

end Settings

end Whiteboard
