import Whiteboard.Canvas.Layout
import Whiteboard.Json.Decode
import Whiteboard.Session.Settings

/-!
# Settings as JSON

Each setting stands for its default where it is absent or null.
-/

namespace Whiteboard

open Json

/-- A setting of a record, or its default. -/
def Json.Fields.setting (f : Fields) (name : String) (default : α) (decode : Json → Option α) : Option α :=
  (f.optional name decode).map (·.getD default)

/-- The timing that a value describes. -/
def Timing.ofJson? (j : Json) : Option Timing := do
  let d : Timing := {}
  let f ← j.toFields? ["base_wait", "slow_wait", "slow_threshold", "fast_threshold", "cooldown"]
  return {
    baseWait := ← f.setting "base_wait" d.baseWait (toWord? 64)
    slowWait := ← f.setting "slow_wait" d.slowWait (toWord? 64)
    slowThreshold := ← f.setting "slow_threshold" d.slowThreshold (toWord? 64)
    fastThreshold := ← f.setting "fast_threshold" d.fastThreshold (toWord? 64)
    cooldown := ← f.setting "cooldown" d.cooldown (toWord? 64) }

/-- The policy that a value describes. -/
def RetryPolicy.ofJson? (j : Json) : Option RetryPolicy := do
  let d : RetryPolicy := {}
  let f ← j.toFields? ["max_attempts", "initial_delay_ms", "max_delay_ms", "multiplier"]
  return {
    maxAttempts := ← f.setting "max_attempts" d.maxAttempts (toWord? 32)
    initialDelay := ← f.setting "initial_delay_ms" d.initialDelay (toWord? 64)
    maxDelay := ← f.setting "max_delay_ms" d.maxDelay (toWord? 64)
    factor := ← f.setting "multiplier" d.factor toDouble? }

/-- The layout that a value describes. -/
def Layout.ofJson? (j : Json) : Option Layout := do
  let d : Layout := {}
  let f ← j.toFields? ["node_width", "node_height", "node_gap", "layer_gap", "group_padding"]
  return {
    nodeWidth := ← f.setting "node_width" d.nodeWidth toSingle?
    nodeHeight := ← f.setting "node_height" d.nodeHeight toSingle?
    nodeGap := ← f.setting "node_gap" d.nodeGap toSingle?
    layerGap := ← f.setting "layer_gap" d.layerGap toSingle?
    groupPadding := ← f.setting "group_padding" d.groupPadding toSingle? }

end Whiteboard
