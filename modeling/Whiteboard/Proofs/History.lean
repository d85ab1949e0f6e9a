import Mathlib.Data.List.Basic

/-!
# Histories of runs

A run applies a step to a state for one event after the other. Its history keeps, for every event, the state before it and
the state after it, so that what is said of a run can be said of each of its steps and of the steps before and after.
-/

namespace Whiteboard

/-- One step of a run. -/
structure Moment (σ ε : Type) where
  before : σ
  event : ε
  after : σ

/-- The steps of a run, in order. -/
def history (step : σ → ε → σ) (s : σ) : List ε → List (Moment σ ε)
  | [] => []
  | event :: rest => ⟨s, event, step s event⟩ :: history step (step s event) rest

variable {step : σ → ε → σ} {s : σ}

theorem history_append (events later : List ε) :
    history step s (events ++ later) = history step s events ++ history step (events.foldl step s) later := by
  induction events generalizing s with
  | nil => rfl
  | cons event events ih => simp only [List.cons_append, history, List.foldl_cons, ih]

theorem history_concat (events : List ε) (event : ε) :
    history step s (events ++ [event]) =
      history step s events ++ [⟨events.foldl step s, event, step (events.foldl step s) event⟩] := by
  rw [history_append]
  rfl

/-- A history has every event of its run, in order. -/
theorem map_event_history (step : σ → ε → σ) (s : σ) (events : List ε) : (history step s events).map (·.event) = events := by
  induction events generalizing s with
  | nil => rfl
  | cons event events ih => rw [history, List.map_cons, ih]

/-- A step divides a run into the events before it and the events after it. -/
theorem exists_of_history_eq {events : List ε} {earlier later : List (Moment σ ε)} {m : Moment σ ε}
    (h : history step s events = earlier ++ m :: later) :
    ∃ done rest, events = done ++ m.event :: rest ∧ earlier = history step s done ∧ m.before = done.foldl step s ∧
      m.after = step m.before m.event ∧ later = history step m.after rest := by
  induction events generalizing s earlier with
  | nil => simp [history] at h
  | cons event events ih =>
    rw [history] at h
    cases earlier with
    | nil =>
      obtain ⟨rfl, rfl⟩ := List.cons.inj h
      exact ⟨[], events, rfl, rfl, rfl, rfl, rfl⟩
    | cons first earlier =>
      obtain ⟨rfl, htail⟩ := List.cons.inj h
      obtain ⟨done, rest, rfl, rfl, hbefore, hafter, hlater⟩ := ih htail
      exact ⟨event :: done, rest, rfl, rfl, hbefore, hafter, hlater⟩

/-- Every step of a run starts where the events before it lead. -/
theorem exists_of_mem_history {events : List ε} {m : Moment σ ε} (h : m ∈ history step s events) :
    ∃ done rest, events = done ++ m.event :: rest ∧ m.before = done.foldl step s ∧ m.after = step m.before m.event := by
  obtain ⟨earlier, later, heq⟩ := List.append_of_mem h
  obtain ⟨done, rest, hevents, -, hbefore, hafter, -⟩ := exists_of_history_eq heq
  exact ⟨done, rest, hevents, hbefore, hafter⟩

end Whiteboard
