import Mathlib.Data.List.Perm.Basic
import Whiteboard.Schedule.Clock

/-!
# What a clock holds

Main statement: the next event of a clock is one of those that it holds, and the others are those that it holds afterwards
(`Clock.perm_of_next?`). Whether an event is ready or set for later makes no difference here.
-/

namespace Whiteboard.Clock

variable {ε : Type} (c : Clock ε)

/-- What is ready to happen and what will happen later. -/
def events : List ε := c.ready ++ c.alarms.map (·.event)

theorem events_postAll (events : List ε) : (c.postAll events).events.Perm (c.events ++ events) := by
  unfold Clock.events postAll
  rw [List.append_assoc, List.append_assoc]
  exact List.Perm.append_left _ List.perm_append_comm

@[simp] theorem events_setAlarm (delay : Nat) (event : ε) : (c.setAlarm delay event).events = c.events ++ [event] := by
  simp [events, setAlarm]

@[simp] theorem events_drop (p : ε → Bool) : (c.drop p).events = c.events.filter (!p ·) := by
  simp [events, drop, List.filter_map, Function.comp_def]

/-- Jumping to a later time loses no event. -/
theorem events_jump (time : Nat) : (c.jump time).events.Perm c.events := by
  unfold events jump
  simp only [List.partition_eq_filter_filter, List.append_assoc]
  refine List.Perm.append_left _ ?_
  rw [← List.map_append]
  exact (List.filter_append_perm _ _).map _

/-- What is due by the time of a jump does not lie ahead any longer. -/
theorem mem_alarms_jump {time : Nat} {a : Alarm ε} : a ∈ (c.jump time).alarms ↔ a ∈ c.alarms ∧ time < a.due := by
  simp [jump, List.partition_eq_filter_filter]

/-- Once the clock has jumped, the events whose alarms are due are ready too. -/
theorem mem_ready_jump {time : Nat} {event : ε} :
    event ∈ (c.jump time).ready ↔ event ∈ c.ready ∨ ∃ a ∈ c.alarms, a.due ≤ time ∧ a.event = event := by
  simp [jump, List.partition_eq_filter_filter, and_assoc]

/-- A jump to a time before all alarms only moves the time. -/
theorem jump_of_later {c : Clock ε} {time : Nat} (h : ∀ a ∈ c.alarms, time < a.due) :
    c.jump time = { c with now := time } := by
  have hnone : c.alarms.filter (fun a => a.due ≤ time) = [] := by
    rw [List.filter_eq_nil_iff]
    intro a ha
    simpa using h a ha
  have hall : c.alarms.filter (not ∘ fun a => decide (a.due ≤ time)) = c.alarms := by
    rw [List.filter_eq_self]
    intro a ha
    simpa using h a ha
  rw [jump, List.partition_eq_filter_filter, hnone, hall]
  simp only [List.map_nil, List.append_nil]

/-- The next alarm is one of them, and none is earlier. -/
theorem nextDue?_eq_some {c : Clock ε} {time : Nat} (h : c.nextDue? = some time) :
    (∃ a ∈ c.alarms, a.due = time) ∧ ∀ a ∈ c.alarms, time ≤ a.due := by
  rw [nextDue?, List.min?_eq_some_iff] at h
  exact ⟨List.mem_map.1 h.1, fun a ha => h.2 _ (List.mem_map_of_mem ha)⟩

/-- Where nothing is due there are no alarms. -/
theorem nextDue?_eq_none {c : Clock ε} (h : c.nextDue? = none) : c.alarms = [] := by
  rwa [nextDue?, List.min?_eq_none_iff, List.map_eq_nil_iff] at h

/-- The next event is ready, or the time jumps to the next alarm and it is ready then. -/
theorem next?_cases {c c' : Clock ε} {limit? : Option Nat} {event : ε} (h : c.next? limit? = some (event, c')) :
    (∃ rest, c.ready = event :: rest ∧ c' = { c with ready := rest }) ∨
      c.ready = [] ∧ ∃ time rest, c.nextDue? = some time ∧ limit?.any (· < time) = false ∧
        (c.jump time).ready = event :: rest ∧ c' = { c.jump time with ready := rest } := by
  unfold next? at h
  split at h
  · rename_i first rest hready
    cases h
    exact Or.inl ⟨rest, hready, rfl⟩
  · rename_i hready
    split at h
    · cases h
    · rename_i time hdue
      split at h
      · cases h
      · rename_i hlimit
        simp only at h
        split at h
        · rename_i first rest hjump
          cases h
          exact Or.inr ⟨hready, time, rest, hdue, Bool.eq_false_iff.2 hlimit, hjump, rfl⟩
        · cases h

/-- Where no event is left up to a time, all alarms are later. -/
theorem next?_eq_none {c : Clock ε} {time : Nat} (h : c.next? (some time) = none) :
    c.ready = [] ∧ ∀ a ∈ c.alarms, time < a.due := by
  unfold next? at h
  split at h
  · cases h
  · rename_i hready
    refine ⟨hready, fun a ha => ?_⟩
    split at h
    · rename_i hdue
      rw [nextDue?_eq_none hdue] at ha
      cases ha
    · rename_i due hdue
      obtain ⟨⟨b, hb, hbdue⟩, hleast⟩ := nextDue?_eq_some hdue
      split at h
      · rename_i hlimit
        have hlate : time < due := by simpa using hlimit
        exact Nat.lt_of_lt_of_le hlate (hleast a ha)
      · simp only at h
        split at h
        · cases h
        · rename_i hjump
          have hmem := (c.mem_ready_jump).2 (Or.inr ⟨b, hb, Nat.le_of_eq hbdue, rfl⟩)
          rw [hjump] at hmem
          cases hmem

/-- The next event is taken from those that the clock holds. -/
theorem perm_of_next? {c c' : Clock ε} {limit? : Option Nat} {event : ε} (h : c.next? limit? = some (event, c')) :
    c.events.Perm (event :: c'.events) := by
  rcases next?_cases h with ⟨rest, hready, rfl⟩ | ⟨-, time, rest, -, -, hready, rfl⟩
  · simp [events, hready]
  · have hjump := c.events_jump time
    simp only [events, hready, List.cons_append] at hjump
    exact hjump.symm

section

variable {β : Type} (f : ε → Option β)

/-- Posting events adds what is made of these. -/
theorem filterMap_postAll (events : List ε) :
    ((c.postAll events).events.filterMap f).Perm (c.events.filterMap f ++ events.filterMap f) := by
  rw [← List.filterMap_append]
  exact (c.events_postAll events).filterMap f

/-- Setting an alarm adds what is made of its event. -/
theorem filterMap_setAlarm (delay : Nat) (event : ε) :
    (c.setAlarm delay event).events.filterMap f = c.events.filterMap f ++ (f event).toList := by
  rw [events_setAlarm, List.filterMap_append]
  cases h : f event <;> simp [h]

/-- The next event takes with it what is made of it. -/
theorem filterMap_of_next? {c c' : Clock ε} {limit? : Option Nat} {event : ε} (h : c.next? limit? = some (event, c')) :
    (c.events.filterMap f).Perm ((f event).toList ++ c'.events.filterMap f) := by
  have hperm := (perm_of_next? h).filterMap f
  rw [List.filterMap_cons] at hperm
  cases hevent : f event <;> simpa [hevent] using hperm

end

/-- The clock is as large as it has events. -/
theorem size_eq_length_events : c.size = c.events.length := by simp [size, events]

/-- What the clock holds satisfies `p` at the time at which it is to happen. -/
structure AllAt (p : ε → Nat → Prop) (c : Clock ε) : Prop where
  ready : ∀ e ∈ c.ready, p e c.now
  alarms : ∀ a ∈ c.alarms, p a.event a.due

/-- What happens next satisfies `p` when it happens, if `p` does not cease to hold as time goes by, and so does all that is
left. -/
theorem AllAt.next? {p : ε → Nat → Prop} {c c' : Clock ε} {limit? : Option Nat} {event : ε} (h : c.AllAt p)
    (hlater : ∀ e time later, p e time → time ≤ later → p e later) (hnext : c.next? limit? = some (event, c')) :
    p event c'.now ∧ c'.AllAt p := by
  obtain ⟨hready, halarms⟩ := h
  rcases next?_cases hnext with ⟨rest, hevents, rfl⟩ | ⟨hidle, time, rest, -, -, hjump, rfl⟩
  · rw [hevents] at hready
    exact ⟨hready _ List.mem_cons_self, fun e he => hready e (List.mem_cons_of_mem _ he), halarms⟩
  · have hdue : ∀ e ∈ event :: rest, p e time := by
      intro e he
      rw [← hjump, mem_ready_jump, hidle] at he
      obtain ⟨a, ha, hle, rfl⟩ := he.resolve_left List.not_mem_nil
      exact hlater _ _ _ (halarms a ha) hle
    exact ⟨hdue _ List.mem_cons_self, fun e he => hdue e (List.mem_cons_of_mem _ he),
      fun a ha => halarms a ((mem_alarms_jump c).1 ha).1⟩

/-- Where no alarm lies behind, the next event takes time no further than to the alarms that are left. -/
theorem now_le_of_next? {c c' : Clock ε} {limit? : Option Nat} {event : ε} (h : ∀ a ∈ c.alarms, c.now ≤ a.due)
    (hnext : c.next? limit? = some (event, c')) :
    c.now ≤ c'.now ∧ ∀ a ∈ c'.alarms, a ∈ c.alarms ∧ c'.now ≤ a.due := by
  rcases next?_cases hnext with ⟨rest, -, rfl⟩ | ⟨-, time, rest, hdue, -, -, rfl⟩
  · exact ⟨Nat.le_refl _, fun b hb => ⟨hb, h b hb⟩⟩
  · obtain ⟨⟨a, ha, rfl⟩, -⟩ := nextDue?_eq_some hdue
    refine ⟨h a ha, fun b hb => ?_⟩
    obtain ⟨hb, hlater⟩ := (mem_alarms_jump c).1 hb
    exact ⟨hb, Nat.le_of_lt hlater⟩

end Whiteboard.Clock
