import Mathlib.Data.List.Induction
import Whiteboard.Generation.Guard
import Whiteboard.Proofs.Schedule.Clock

/-!
# Histories of guarded calls

Guarded calls are made, dropped and given up as their users like, and end when they will. A history is what can come of it:
calls, drops and cancellations at any time and in any order, and between them calls that end. Of the calls that are to end at
one instant any may end first, and whatever else is done may come before, between or after them. Time goes by only while none
is to end.

A log has everything that has happened, in order, so that what is said of a call can be said by it alone: whether the call is
under way (`Log.IsUnderWay`), and what it has come to (`Log.phase`).
-/

namespace Whiteboard

/-! ## Time -/

namespace Clock

variable (c : Clock ε)

/-- Time goes by, but not beyond the next alarm, and not while anything is ready to happen. -/
def advance (ms : Nat) : Clock ε :=
  if c.ready.isEmpty then c.jump (min (c.now + ms) (c.nextDue?.getD (c.now + ms))) else c

/-- The event at the given place among those that are ready happens before the others. -/
def take? (place : Nat) : Option (ε × Clock ε) :=
  c.ready[place]?.map fun event => (event, { c with ready := c.ready.eraseIdx place })

variable {c}

/-- Where no alarm lies behind, time goes by up to a time that none lies behind either. -/
theorem advance_cases (h : ∀ a ∈ c.alarms, c.now ≤ a.due) (ms : Nat) :
    c.advance ms = c ∨
      c.ready = [] ∧ ∃ time, c.now ≤ time ∧ (∀ a ∈ c.alarms, time ≤ a.due) ∧ c.advance ms = c.jump time := by
  unfold advance
  split
  · rename_i hready
    refine Or.inr ⟨List.isEmpty_iff.1 hready, _, ?_, ?_, rfl⟩
    all_goals cases hnext : c.nextDue? with
      | none => simp [nextDue?_eq_none hnext]
      | some due =>
        obtain ⟨⟨a, ha, rfl⟩, hleast⟩ := nextDue?_eq_some hnext
        have hnow := h a ha
        simp only [Option.getD_some]
        first
          | omega
          | exact fun b hb => Nat.le_trans (Nat.min_le_right _ _) (hleast b hb)
  · exact Or.inl rfl

/-- An event is taken out of its place, and the others are left in their order. -/
theorem exists_of_take? {place : Nat} {event : ε} {c' : Clock ε} (h : c.take? place = some (event, c')) :
    ∃ first last, c.ready = first ++ event :: last ∧ c' = { c with ready := first ++ last } := by
  obtain ⟨e, he, heq⟩ := Option.map_eq_some_iff.1 h
  obtain ⟨rfl, rfl⟩ := Prod.mk.inj heq
  obtain ⟨hlt, rfl⟩ := List.getElem?_eq_some_iff.1 he
  refine ⟨c.ready.take place, c.ready.drop (place + 1), ?_, ?_⟩
  · rw [List.getElem_cons_drop, List.take_append_drop]
  · rw [List.eraseIdx_eq_take_drop_succ]

end Clock

/-! ## What happens -/

namespace Calls

/-- Something that is done to guarded calls, or that happens by itself. -/
inductive Event where
  | call (call : Call)
  | drop (id : Nat)
  | cancelAll
  /-- Of the calls that are to end now the one at the given place ends. -/
  | finish (place : Nat)
  /-- Some time goes by. -/
  | pass (ms : Nat)

/-- What has happened. -/
inductive Note where
  /-- A call has begun, at a time, and this is what its generator will reply. -/
  | began (id time : Nat) (reply : Reply)
  /-- A call has returned. -/
  | ended (outcome : GuardedCalls.Outcome)
  /-- Nobody waits for a call any longer. -/
  | dropped (id : Nat)
  /-- All calls under way have been given up, and there were so many. -/
  | cancelled (count : Nat)

namespace Note

/-- The call that has begun. -/
def begun? : Note → Option Nat
  | .began id _ _ => some id
  | _ => none

/-- How a call has ended. -/
def ended? : Note → Option GuardedCalls.Outcome
  | .ended o => some o
  | _ => none

/-- The given call has ended or has been dropped. -/
def closes (id : Nat) : Note → Bool
  | .ended o => o.call == id
  | .dropped other => other == id
  | _ => false

/-- All calls have been given up. -/
def cancels : Note → Bool
  | .cancelled _ => true
  | _ => false

/-- A note is of an ending if it says so. -/
theorem ended?_eq_some {n : Note} {o : GuardedCalls.Outcome} : n.ended? = some o ↔ n = .ended o := by
  cases n <;> simp [ended?]

end Note

end Calls

/-- Guarded calls and everything that has happened to them. -/
structure Calls (σ : Type) where
  guarded : GuardedCalls σ
  /-- What has happened, in order. -/
  log : List Calls.Note := []

namespace Calls

/-- A generator that has not been called. -/
def ofGenerator (limit : Nat) (generator : Generator σ) (state : σ) : Calls σ := { guarded := { limit, generator, state } }

/-- Calls after something has been done to them; what has ended with it is in their outcomes. -/
def after (c : Calls σ) (notes : List Note) (g : GuardedCalls σ) : Calls σ :=
  { guarded := g, log := c.log ++ notes ++ (g.outcomes.drop c.guarded.outcomes.length).map .ended }

/-- Something happens. -/
def step (c : Calls σ) : Event → Calls σ
  | .call call =>
    let (id, g) := c.guarded.call call
    c.after [.began id c.guarded.clock.now (c.guarded.generator c.guarded.state call).1] g
  | .drop id => c.after [.dropped id] (c.guarded.drop id)
  | .cancelAll =>
    let (count, g) := c.guarded.cancelAll
    c.after [.cancelled count] g
  | .finish place =>
    match c.guarded.clock.take? place with
    | none => c
    | some (ending, clock) => c.after [] ({ c.guarded with clock }.finish ending)
  | .pass ms => c.after [] { c.guarded with clock := c.guarded.clock.advance ms }

/-- One thing after the other happens. -/
def run (c : Calls σ) (events : List Event) : Calls σ := events.foldl step c

/-! ## What a log tells of a call -/

/-- What a call has come to. -/
inductive Phase where
  /-- It has not begun, or it has ended or has been dropped. -/
  | closed
  /-- It began at a time, and its generator will reply. -/
  | waiting (time : Nat) (reply : Reply)
  /-- It began at a time, and it has been given up and has not ended yet. -/
  | givenUp (time : Nat)

/-- When a call began that is open. -/
def Phase.began? : Phase → Option Nat
  | .closed => none
  | .waiting time _ => some time
  | .givenUp time => some time

/-- What a call comes to. -/
def Phase.after (id : Nat) (p : Phase) : Note → Phase
  | .began other time reply => if other = id then .waiting time reply else p
  | .ended o => if o.call = id then .closed else p
  | .dropped other => if other = id then .closed else p
  | .cancelled _ =>
    match p with
    | .waiting time _ => .givenUp time
    | p => p

namespace Log

/-- What a call has come to after all that has happened. -/
def phase (log : List Note) (id : Nat) : Phase := log.foldl (Phase.after id) .closed

/-- A call has begun, and it has not ended, been dropped or been given up since. -/
def IsUnderWay (log : List Note) (id : Nat) : Prop :=
  ∃ before time reply since, log = before ++ .began id time reply :: since ∧
    ∀ n ∈ since, n.closes id = false ∧ n.cancels = false

theorem phase_concat (log : List Note) (n : Note) (id : Nat) : phase (log ++ [n]) id = (phase log id).after id n := by
  rw [phase, List.foldl_concat]
  rfl

theorem phase_begun (log : List Note) (id time : Nat) (reply : Reply) :
    phase (log ++ [.began id time reply]) id = .waiting time reply := by
  rw [phase_concat, Phase.after, if_pos rfl]

end Log

section

variable {id : Nat}

/-- A call that is given up began when it did. -/
theorem Phase.began?_after_cancelled (p : Phase) (count : Nat) : (p.after id (.cancelled count)).began? = p.began? := by
  cases p <;> rfl

/-- A note that does not close a call does not end it. -/
theorem Phase.after_ne_closed {p : Phase} {n : Note} (hp : p ≠ .closed) (hn : n.closes id = false) : p.after id n ≠ .closed := by
  cases n with
  | began other time reply => rw [after]; split <;> simp [hp]
  | ended o => simpa [after, beq_eq_false_iff_ne.1 hn] using hp
  | dropped other => simpa [after, beq_eq_false_iff_ne.1 hn] using hp
  | cancelled count => cases p <;> simp_all [after]

/-- Nor does it change when the call began, unless it begins once more. -/
theorem Phase.began?_after {p : Phase} {n : Note} (hcloses : n.closes id = false) (hbegun : n.begun? ≠ some id) :
    (p.after id n).began? = p.began? := by
  cases n with
  | began other time reply => rw [after, if_neg fun h => hbegun (congrArg some h)]
  | ended o => rw [after, if_neg (beq_eq_false_iff_ne.1 hcloses)]
  | dropped other => rw [after, if_neg (beq_eq_false_iff_ne.1 hcloses)]
  | cancelled count => exact began?_after_cancelled p count

/-- Nor does it give up the call, unless it gives up all. -/
theorem Phase.after_waiting {time : Nat} {reply : Reply} {n : Note} (hn : n.closes id = false ∧ n.cancels = false) :
    ∃ time' reply', (waiting time reply).after id n = .waiting time' reply' := by
  obtain ⟨hcloses, hcancels⟩ := hn
  cases n with
  | began other time' reply' => rw [after]; split <;> exact ⟨_, _, rfl⟩
  | ended o => exact ⟨_, _, by rw [after, if_neg (beq_eq_false_iff_ne.1 hcloses)]⟩
  | dropped other => exact ⟨_, _, by rw [after, if_neg (beq_eq_false_iff_ne.1 hcloses)]⟩
  | cancelled count => cases hcancels

end

namespace Log

variable {log : List Note} {id : Nat}

/-- A call that is open has begun and has not been closed since, and it has been given up if all calls have been. Along the log,
a note about something else leaves the call as it is. -/
theorem exists_of_phase_ne_closed (h : phase log id ≠ .closed) :
    ∃ before time reply since, log = before ++ .began id time reply :: since ∧ (∀ n ∈ since, n.closes id = false) ∧
      phase log id = if since.any (·.cancels) then .givenUp time else .waiting time reply := by
  induction log using List.reverseRecOn with
  | nil => exact absurd rfl h
  | append_singleton log n ih =>
    rw [phase_concat] at h ⊢
    have hkept : (phase log id).after id n = phase log id → n.closes id = false → n.cancels = false →
        ∃ before time reply since, log ++ [n] = before ++ .began id time reply :: since ∧
          (∀ n ∈ since, n.closes id = false) ∧
          (phase log id).after id n = if since.any (·.cancels) then .givenUp time else .waiting time reply := by
      intro hsame hcloses hcancels
      rw [hsame] at h ⊢
      obtain ⟨before, time, reply, since, hlog, hsince, hphase⟩ := ih h
      exact ⟨before, time, reply, since ++ [n], by simp [hlog],
        List.forall_mem_append.2 ⟨hsince, List.forall_mem_singleton.2 hcloses⟩, by simpa [hcancels] using hphase⟩
    cases n with
    | began other time reply =>
      by_cases hother : other = id
      · subst hother
        exact ⟨log, time, reply, [], rfl, nofun, by simp [Phase.after]⟩
      · exact hkept (if_neg hother) rfl rfl
    | ended o =>
      by_cases hother : o.call = id
      · exact absurd (if_pos hother) h
      · exact hkept (if_neg hother) (beq_eq_false_iff_ne.2 hother) rfl
    | dropped other =>
      by_cases hother : other = id
      · exact absurd (if_pos hother) h
      · exact hkept (if_neg hother) (beq_eq_false_iff_ne.2 hother) rfl
    | cancelled count =>
      have hopen : phase log id ≠ .closed := by
        intro hclosed
        rw [hclosed] at h
        exact h rfl
      obtain ⟨before, time, reply, since, hlog, hsince, hphase⟩ := ih hopen
      refine ⟨before, time, reply, since ++ [.cancelled count], by simp [hlog],
        List.forall_mem_append.2 ⟨hsince, List.forall_mem_singleton.2 rfl⟩, ?_⟩
      rw [hphase]
      cases since.any (·.cancels) <;> simp [Phase.after, Note.cancels]

/-- A call stays open until it is closed. -/
theorem phase_append_ne_closed {since : List Note} (h : phase log id ≠ .closed) (hsince : ∀ n ∈ since, n.closes id = false) :
    phase (log ++ since) id ≠ .closed := by
  induction since using List.reverseRecOn with
  | nil => rwa [List.append_nil]
  | append_singleton since n ih =>
    rw [← List.append_assoc, phase_concat]
    exact Phase.after_ne_closed (ih fun m hm => hsince m (List.mem_append_left _ hm)) (hsince n (by simp))

/-- And it began when it did. -/
theorem began?_phase_append {since : List Note} (hsince : ∀ n ∈ since, n.closes id = false ∧ n.begun? ≠ some id) :
    (phase (log ++ since) id).began? = (phase log id).began? := by
  induction since using List.reverseRecOn with
  | nil => rw [List.append_nil]
  | append_singleton since n ih =>
    obtain ⟨hcloses, hbegun⟩ := hsince n (by simp)
    rw [← List.append_assoc, phase_concat, Phase.began?_after hcloses hbegun]
    exact ih fun m hm => hsince m (List.mem_append_left _ hm)

/-- A call waits for its reply until it is closed or all calls are given up. -/
theorem phase_append_waiting {since : List Note} (h : ∃ time reply, phase log id = .waiting time reply)
    (hsince : ∀ n ∈ since, n.closes id = false ∧ n.cancels = false) :
    ∃ time reply, phase (log ++ since) id = .waiting time reply := by
  induction since using List.reverseRecOn with
  | nil => rwa [List.append_nil]
  | append_singleton since n ih =>
    obtain ⟨time, reply, hphase⟩ := ih fun m hm => hsince m (List.mem_append_left _ hm)
    rw [← List.append_assoc, phase_concat, hphase]
    exact Phase.after_waiting (hsince n (by simp))

/-- A call is under way as long as it waits for its reply. -/
theorem isUnderWay_iff : IsUnderWay log id ↔ ∃ time reply, phase log id = .waiting time reply := by
  constructor
  · rintro ⟨before, time, reply, since, rfl, hsince⟩
    rw [List.append_cons]
    exact phase_append_waiting ⟨time, reply, phase_begun before id time reply⟩ hsince
  · rintro ⟨time, reply, hphase⟩
    have hopen : phase log id ≠ .closed := by
      rw [hphase]
      nofun
    obtain ⟨before, time', reply', since, hlog, hcloses, heq⟩ := exists_of_phase_ne_closed hopen
    rw [hphase] at heq
    split at heq
    · cases heq
    · rename_i hany
      simp only [Bool.not_eq_true, List.any_eq_false] at hany
      exact ⟨before, time', reply', since, hlog, fun n hn => ⟨hcloses n hn, hany n hn⟩⟩

/-- A call that has begun and is closed has been closed since. -/
theorem exists_closes_of_phase_eq_closed {before since : List Note} {time : Nat} {reply : Reply}
    (h : phase (before ++ .began id time reply :: since) id = .closed) : ∃ n ∈ since, n.closes id = true := by
  by_contra hnone
  have hsince : ∀ n ∈ since, n.closes id = false := fun n hn => Bool.eq_false_iff.2 fun hc => hnone ⟨n, hn, hc⟩
  have hopen : phase (before ++ [.began id time reply]) id ≠ .closed := by
    rw [phase_begun]
    nofun
  rw [List.append_cons] at h
  exact phase_append_ne_closed hopen hsince h

end Log

end Calls

end Whiteboard
