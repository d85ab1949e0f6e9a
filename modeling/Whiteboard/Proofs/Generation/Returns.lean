import Mathlib.Data.Set.Card
import Whiteboard.Proofs.Generation.Endings

/-!
# Every guarded call returns once

A call that has begun returns once, at the latest when the limit has gone by, unless it is dropped; and what it returns depends
on nothing but its own reply and on whether all calls have been given up in between. That it does return is shown for a sleep,
which is time that goes by and nothing else (`Elapses`).

Main statement: `return_once`.
-/

namespace Whiteboard.Calls

open GuardedCalls (Ending Outcome)
open Log

/-! ## Time that goes by -/

/-- Between two states time has gone by and calls have ended, and nothing else has happened. -/
structure Elapses (c c' : Calls σ) : Prop where
  reached : ∃ events, c' = c.run events
  ended : ∃ outcomes : List Outcome, c'.log = c.log ++ outcomes.map .ended
  alarms : c'.guarded.clock.alarms ⊆ c.guarded.clock.alarms

section

variable {limit : Nat} {c c' c'' : Calls σ}

theorem Elapses.refl (c : Calls σ) : c.Elapses c := ⟨⟨[], rfl⟩, ⟨[], by simp⟩, List.Subset.refl _⟩

theorem Elapses.trans (h : c.Elapses c') (h' : c'.Elapses c'') : c.Elapses c'' := by
  obtain ⟨⟨events, rfl⟩, ⟨outcomes, hlog⟩, halarms⟩ := h
  obtain ⟨⟨later, rfl⟩, ⟨more, hlog'⟩, halarms'⟩ := h'
  refine ⟨⟨events ++ later, by rw [run, run, run, List.foldl_append]⟩, ⟨outcomes ++ more, ?_⟩,
    List.Subset.trans halarms' halarms⟩
  rw [hlog', hlog, List.map_append, List.append_assoc]

/-- One call that is ready ends. -/
theorem elapses_finish {ending : Ending} {rest : List Ending} (hready : c.guarded.clock.ready = ending :: rest) :
    c.Elapses (c.step (.finish 0)) ∧ (c.step (.finish 0)).guarded =
      { c.guarded with clock := { c.guarded.clock with ready := rest } }.finish ending := by
  have htake : c.guarded.clock.take? 0 = some (ending, { c.guarded.clock with ready := rest }) := by
    simp [Clock.take?, hready]
  have hstep := c.step_finish_of_take? htake
  rw [hstep]
  exact ⟨⟨⟨[.finish 0], hstep.symm⟩, ⟨[_], rfl⟩, List.Subset.refl _⟩, rfl⟩

/-- Time goes by. -/
theorem elapses_pass (c : Calls σ) (ms : Nat) : c.Elapses (c.step (.pass ms)) := by
  refine ⟨⟨[.pass ms], rfl⟩, ⟨[], by rw [step_pass, List.map_nil, List.append_nil]⟩, ?_⟩
  rw [step_pass]
  intro a ha
  simp only [Clock.advance] at ha
  split at ha
  · exact ((Clock.mem_alarms_jump _).1 ha).1
  · exact ha

/-- Time goes by up to the next alarm, or to a time before it. -/
theorem guarded_pass (c : Calls σ) {time : Nat} (hready : c.guarded.clock.ready = []) (hnow : c.guarded.clock.now ≤ time)
    (hdue : ∀ due ∈ c.guarded.clock.nextDue?, time ≤ due) :
    (c.step (.pass (time - c.guarded.clock.now))).guarded =
      { c.guarded with clock := c.guarded.clock.jump time } := by
  have htime : min (c.guarded.clock.now + (time - c.guarded.clock.now))
      (c.guarded.clock.nextDue?.getD (c.guarded.clock.now + (time - c.guarded.clock.now))) = time := by
    rw [Nat.add_sub_cancel' hnow]
    cases hnext : c.guarded.clock.nextDue? with
    | none => exact Nat.min_self time
    | some due => exact Nat.min_eq_left (hdue due hnext)
  rw [step_pass, Clock.advance, hready, htime]
  rfl

/-- The next event up to a time is an ending, before which time goes by if no call is ready to end. -/
theorem IsTracked.exists_elapses_of_next? (h : c.IsTracked limit) {time : Nat} {ending : Ending} {clock : Clock Ending}
    (hnow : c.guarded.clock.now ≤ time) (hnext : c.guarded.clock.next? (some time) = some (ending, clock)) :
    ∃ c', c.Elapses c' ∧ c'.guarded = { c.guarded with clock }.finish ending ∧ clock.now ≤ time := by
  rcases Clock.next?_cases hnext with ⟨rest, hready, rfl⟩ | ⟨hready, due, rest, hdue, hlimit, hjump, rfl⟩
  · obtain ⟨helapses, hguarded⟩ := elapses_finish hready
    exact ⟨_, helapses, hguarded, hnow⟩
  · obtain ⟨⟨a, ha, rfl⟩, -⟩ := Clock.nextDue?_eq_some hdue
    have hpass := c.guarded_pass hready (h.alarms a ha).1 fun due' hdue' => by
      rw [hdue] at hdue'
      exact Nat.le_of_eq (Option.some.inj hdue')
    have hready' : (c.step (.pass (a.due - c.guarded.clock.now))).guarded.clock.ready = ending :: rest := by
      rw [hpass, hjump]
    obtain ⟨helapses, hguarded⟩ := elapses_finish hready'
    refine ⟨_, (c.elapses_pass _).trans helapses, ?_, ?_⟩
    · rw [hguarded, hpass]
    · have htime : a.due ≤ time := by simpa using hlimit
      exact htime

/-- Everything that happens up to a time happens while time goes by. -/
theorem IsTracked.exists_elapses (h : c.IsTracked limit) {time rounds : Nat} (hnow : c.guarded.clock.now ≤ time)
    (hrounds : c.guarded.clock.size ≤ rounds) :
    ∃ c', c.Elapses c' ∧ c'.guarded = GuardedCalls.course.run (fun _ => false) (some time) rounds c.guarded ∧
      c'.guarded.clock.now ≤ time ∧ c'.guarded.clock.ready = [] ∧ ∀ a ∈ c'.guarded.clock.alarms, time < a.due := by
  induction rounds generalizing c with
  | zero =>
    obtain ⟨hready, halarms⟩ := Nat.add_eq_zero_iff.1 (Nat.le_zero.1 hrounds)
    refine ⟨c, .refl c, rfl, hnow, List.eq_nil_of_length_eq_zero hready, ?_⟩
    rw [List.eq_nil_of_length_eq_zero halarms]
    nofun
  | succ rounds ih =>
    rw [Process.run, if_neg Bool.false_ne_true]
    cases hnext : (GuardedCalls.course.clock c.guarded).next? (some time) with
    | none =>
      obtain ⟨hready, halarms⟩ := Clock.next?_eq_none hnext
      exact ⟨c, .refl c, rfl, hnow, hready, halarms⟩
    | some next =>
      obtain ⟨ending, clock⟩ := next
      have hnext : c.guarded.clock.next? (some time) = some (ending, clock) := hnext
      obtain ⟨c', helapses, hguarded, hnow'⟩ := h.exists_elapses_of_next? hnow hnext
      have hclock : c'.guarded.clock = clock := by rw [hguarded]; rfl
      have hless : clock.size + 1 = c.guarded.clock.size := by
        rw [Clock.size_eq_length_events, Clock.size_eq_length_events, (Clock.perm_of_next? hnext).length_eq,
          List.length_cons]
      obtain ⟨events, hrun⟩ := helapses.reached
      have htracked : c'.IsTracked limit := hrun ▸ h.run events
      obtain ⟨c'', helapses', hguarded', hend⟩ := ih htracked (hclock ▸ hnow') (by rw [hclock]; omega)
      refine ⟨c'', helapses.trans helapses', ?_, hend⟩
      rw [hguarded', hguarded]
      rfl

/-- A sleep is nothing but time that goes by, and it leaves no ending that is due. -/
theorem IsTracked.exists_sleep (h : c.IsTracked limit) (ms : Nat) :
    ∃ c', c.Elapses c' ∧ c'.guarded = c.guarded.sleep ms ∧ c'.guarded.clock.ready = [] ∧
      ∀ a ∈ c'.guarded.clock.alarms, c.guarded.clock.now + ms < a.due := by
  obtain ⟨mid, helapses, hguarded, hnow, hready, hlater⟩ :=
    h.exists_elapses (Nat.le_add_right c.guarded.clock.now ms) (Nat.le_refl _)
  have hpass := mid.guarded_pass hready hnow fun due hdue => by
    obtain ⟨⟨a, ha, rfl⟩, -⟩ := Clock.nextDue?_eq_some hdue
    exact Nat.le_of_lt (hlater a ha)
  rw [Clock.jump_of_later hlater] at hpass
  refine ⟨mid.step (.pass (c.guarded.clock.now + ms - mid.guarded.clock.now)), helapses.trans (mid.elapses_pass _), ?_, ?_, ?_⟩
  · have hsleep : c.guarded.sleep ms =
        { mid.guarded with
          clock := { mid.guarded.clock with now := max (c.guarded.clock.now + ms) mid.guarded.clock.now } } := by
      rw [hguarded]
      rfl
    rw [hpass, hsleep, Nat.max_eq_left hnow]
  · rw [hpass]
    exact hready
  · rw [hpass]
    exact hlater

/-! ## Once, and in time -/

/-- No call returns twice. What has returned has begun before and has not returned since, so an earlier return would come before
the call begins, and a beginning before that; but no call begins twice. -/
theorem IsTracked.nodup_outcomes (h : c.IsTracked limit) : (c.guarded.outcomes.map (·.call)).Nodup := by
  have hbegun : (c.log.filterMap (·.begun?)).Nodup := h.begun ▸ List.nodup_range
  rw [h.outcomes]
  have hreturns := h.returns
  generalize c.log = log at hbegun hreturns
  induction log using List.reverseRecOn with
  | nil => exact List.nodup_nil
  | append_singleton log n ih =>
    rw [List.filterMap_append] at hbegun
    have hearlier := ih (List.nodup_append.1 hbegun).1 fun before o later heq =>
      hreturns before o (later ++ [n]) (by simp [heq])
    rw [List.filterMap_append, List.map_append]
    cases hn : n.ended? with
    | none => simpa [hn] using hearlier
    | some o =>
      obtain rfl := Note.ended?_eq_some.1 hn
      refine List.nodup_append.2 ⟨hearlier, List.nodup_singleton _, ?_⟩
      intro id hid other hother hsame
      obtain ⟨o', ho', rfl⟩ := List.mem_map.1 hid
      obtain ⟨m, hm, hm'⟩ := List.mem_filterMap.1 ho'
      obtain rfl := Note.ended?_eq_some.1 hm'
      obtain rfl := List.mem_singleton.1 hother
      obtain ⟨earlier, time, reply, since, rfl, hsince, -⟩ := hreturns log o [] rfl
      have hbefore : .ended o' ∈ earlier := by
        rcases List.mem_append.1 hm with hm | hm
        · exact hm
        · rcases List.mem_cons.1 hm with hm | hm
          · cases hm
          · have hopen := hsince _ hm
            simp [Note.closes, hsame] at hopen
      obtain ⟨first, last, rfl⟩ := List.append_of_mem hbefore
      obtain ⟨earlier', time', reply', since', rfl, -⟩ := hreturns first o'
        (last ++ .began o.call time reply :: (since ++ [.ended o])) (by simp)
      simp [Note.begun?, List.nodup_append, hsame] at hbegun

/-- No call stays open for longer than the limit. -/
theorem IsTracked.now_le (h : c.IsTracked limit) {before since : List Note} {id time : Nat} {reply : Reply}
    (hlog : c.log = before ++ .began id time reply :: since) (hopen : ∀ n ∈ since, n.closes id = false) :
    c.guarded.clock.now ≤ time + limit := by
  have honce : ∀ n ∈ since, n.begun? ≠ some id := by
    have hbegun : (c.log.filterMap (·.begun?)).Nodup := h.begun ▸ List.nodup_range
    rw [hlog, List.filterMap_append, List.filterMap_cons] at hbegun
    intro n hn hagain
    exact (List.nodup_cons.1 (List.nodup_append.1 hbegun).2.1).1 (List.mem_filterMap.2 ⟨n, hn, hagain⟩)
  have hbegan : (phase c.log id).began? = some time := by
    rw [hlog, List.append_cons, began?_phase_append fun n hn => ⟨hopen n hn, honce n hn⟩, phase_begun]
    rfl
  exact h.young id time hbegan

/-- Once the limit has gone by, every call has returned that has not been dropped since it began, and none is under way. -/
theorem IsTracked.sleep_limit (h : c.IsTracked limit) :
    (∀ before id time reply since, c.log = before ++ .began id time reply :: since → .dropped id ∉ since →
        ((c.guarded.sleep limit).outcomes.map (·.call)).count id = 1) ∧
      (c.guarded.sleep limit).tracker.outstanding = [] := by
  obtain ⟨c', helapses, hguarded, hready, hlater⟩ := h.exists_sleep limit
  obtain ⟨events, hreached⟩ := helapses.reached
  have h' : c'.IsTracked limit := hreached ▸ h.run events
  have hclosed : ∀ id, phase c'.log id = .closed := by
    intro id
    by_contra hopen
    obtain ⟨a, ha, -⟩ := h'.exists_alarm hready hopen
    exact Nat.lt_irrefl _ (Nat.lt_of_lt_of_le (hlater a ha) (h.alarms a (helapses.alarms ha)).2.1)
  rw [← hguarded]
  constructor
  · intro before id time reply since heq hdropped
    refine List.count_eq_one_of_mem h'.nodup_outcomes ?_
    obtain ⟨outcomes, hlog⟩ := helapses.ended
    have hlog : c'.log = before ++ .began id time reply :: (since ++ outcomes.map .ended) := by simp [hlog, heq]
    obtain ⟨n, hn, hcloses⟩ := exists_closes_of_phase_eq_closed (hlog ▸ hclosed id)
    cases n with
    | ended o =>
      have hended : .ended o ∈ c'.log := by simp [hlog, hn]
      rw [h'.outcomes]
      exact List.mem_map.2 ⟨o, List.mem_filterMap.2 ⟨_, hended, rfl⟩, beq_iff_eq.1 hcloses⟩
    | dropped other =>
      obtain rfl := beq_iff_eq.1 hcloses
      simp [hdropped] at hn
    | began other time reply => cases hcloses
    | cancelled count => cases hcloses
  · rw [List.eq_nil_iff_forall_not_mem]
    intro id hid
    obtain ⟨time, reply, hwaiting⟩ := (h'.outstanding id).1 hid
    rw [hclosed] at hwaiting
    cases hwaiting

/-! ## The calls under way -/

/-- The tracker holds each call under way once, and no other. -/
theorem IsTracked.length_outstanding (h : c.IsTracked limit) :
    c.guarded.tracker.outstanding.length = {id | IsUnderWay c.log id}.ncard := by
  have hset : {id | IsUnderWay c.log id} = ↑c.guarded.tracker.outstanding.toFinset := by
    ext id
    simp [isUnderWay_iff, h.outstanding id]
  rw [hset, Set.ncard_coe_finset, List.toFinset_card_of_nodup h.nodup]

/-- A call is taken from the tracker only when all are given up, when it is dropped or when it ends. -/
theorem IsTracked.exists_of_removed (h : c.IsTracked limit) {event : Event} {id : Nat}
    (hid : id ∈ c.guarded.tracker.outstanding) (hgone : id ∉ (c.step event).guarded.tracker.outstanding) :
    event = .cancelAll ∨ event = .drop id ∨ ∃ o, o.call = id ∧ (c.step event).log = c.log ++ [.ended o] := by
  have hkept : ∀ other, id ≠ other → id ∈ (c.guarded.tracker.finish other).outstanding := fun other hne =>
    List.mem_filter.2 ⟨hid, bne_iff_ne.2 hne⟩
  cases event with
  | call call =>
    have hne : id ≠ c.guarded.tracker.next := by
      rintro rfl
      obtain ⟨time, reply, hwaiting⟩ := (h.outstanding _).1 hid
      rw [h.phase_next] at hwaiting
      cases hwaiting
    rw [step_call] at hgone
    refine absurd ?_ hgone
    simp only
    split
    · exact List.mem_filter.2 ⟨List.mem_append_left _ hid, bne_iff_ne.2 hne⟩
    · exact List.mem_append_left _ hid
  | drop other =>
    rw [step_drop] at hgone
    by_cases hother : id = other
    · exact Or.inr (Or.inl (by rw [hother]))
    · exact absurd (hkept other hother) hgone
  | cancelAll => exact Or.inl rfl
  | finish place =>
    rcases c.step_finish place with hsame | ⟨first, ending, last, -, hstep⟩
    · rw [hsame] at hgone
      exact absurd hid hgone
    · by_cases hother : id = ending.call
      · exact Or.inr (Or.inr ⟨_, hother.symm, by rw [hstep]⟩)
      · rw [hstep] at hgone
        exact absurd (hkept ending.call hother) hgone
  | pass ms =>
    rw [step_pass] at hgone
    exact absurd hid hgone

end

/-- Guarded calls end once and are not forgotten, whatever is done to them and in whatever order they end. A call that returns
has begun and has neither returned nor been dropped since; it returns that it was given up if all calls were given up in
between, and otherwise the reply of its generator if that takes no longer than the limit, and else that the time was up. No
call returns twice, and none stays open for longer than the limit: once it has gone by every call has returned that has not been
dropped. The tracker counts the calls under way: those that have begun and have not ended, been dropped or been given up since.
To give up all calls tells their number and leaves none, and no other call goes when one ends or is dropped. -/
theorem return_once (limit : Nat) (generator : Generator σ) (state : σ) (events : List Event) :
    let c := (ofGenerator limit generator state).run events
    c.log.filterMap (·.begun?) = List.range c.guarded.tracker.next ∧
    c.log.filterMap (·.ended?) = c.guarded.outcomes ∧
    (∀ before o later, c.log = before ++ .ended o :: later →
      ∃ earlier time reply since, before = earlier ++ .began o.call time reply :: since ∧
        (∀ n ∈ since, n.closes o.call = false) ∧
        (o.answer = if since.any (·.cancels) then .error .cancelled
          else if reply.delay ≤ limit then reply.answer else .error (.timedOut limit)) ∧
        (since.any (·.cancels) = false → o.time = time + min reply.delay limit)) ∧
    (c.guarded.outcomes.map (·.call)).Nodup ∧
    (∀ before id time reply since, c.log = before ++ .began id time reply :: since → (∀ n ∈ since, n.closes id = false) →
      c.guarded.clock.now ≤ time + limit) ∧
    (∀ before id time reply since, c.log = before ++ .began id time reply :: since → .dropped id ∉ since →
      ((c.guarded.sleep limit).outcomes.map (·.call)).count id = 1) ∧
    (c.guarded.sleep limit).tracker.outstanding = [] ∧
    c.guarded.tracker.outstanding.length = {id | IsUnderWay c.log id}.ncard ∧
    c.guarded.cancelAll.1 = {id | IsUnderWay c.log id}.ncard ∧
    c.guarded.cancelAll.2.tracker.outstanding = [] ∧
    ∀ event, ∀ id ∈ c.guarded.tracker.outstanding, id ∉ (c.step event).guarded.tracker.outstanding →
      event = .cancelAll ∨ event = .drop id ∨ ∃ o, o.call = id ∧ (c.step event).log = c.log ++ [.ended o] := by
  intro c
  have h : c.IsTracked limit := (isTracked_ofGenerator limit generator state).run events
  exact ⟨h.begun, h.outcomes.symm, h.returns, h.nodup_outcomes, fun _ _ _ _ _ hlog hopen => h.now_le hlog hopen,
    h.sleep_limit.1, h.sleep_limit.2, h.length_outstanding, h.length_outstanding, rfl,
    fun event id hid hgone => h.exists_of_removed hid hgone⟩

/-- Replies one after the other. -/
def inTurn : Generator (List Reply)
  | [], _ => (⟨0, .error .transport⟩, [])
  | reply :: replies, _ => (reply, replies)

/-- A reply in time, one that is too late, another in time and another that is too late. -/
def mixed : List Reply :=
  [⟨4, .ok (.text "a")⟩, ⟨20, .ok (.text "b")⟩, ⟨4, .ok (.text "c")⟩, ⟨20, .ok (.text "d")⟩]

/-- Of three calls one returns and two are given up; these return after another call has begun, the later one first. -/
def crossing : List Event :=
  let request : Call := .propose ⟨"draw", .replaceCanvas, {}⟩
  [.call request, .call request, .call request, .pass 7, .finish 0, .cancelAll, .call request, .finish 1, .finish 0]

/-- Three of the calls have returned once, and the fourth one does so within the limit. -/
theorem return_once_crossing :
    let c := (ofGenerator 10 inTurn mixed).run crossing
    c.guarded.outcomes = [⟨0, 4, .ok (.text "a")⟩, ⟨2, 4, .error .cancelled⟩, ⟨1, 4, .error .cancelled⟩] ∧
      ((c.guarded.sleep 10).outcomes.map (·.call)).count 3 = 1 ∧ {id | IsUnderWay c.log id}.ncard = 1 := by
  have hreturn := return_once 10 inTurn mixed crossing
  generalize hc : (ofGenerator 10 inTurn mixed).run crossing = c at hreturn
  have hlog : c.log = [.began 0 0 ⟨4, .ok (.text "a")⟩, .began 1 0 ⟨20, .ok (.text "b")⟩, .began 2 0 ⟨4, .ok (.text "c")⟩,
      .ended ⟨0, 4, .ok (.text "a")⟩, .cancelled 2, .began 3 4 ⟨20, .ok (.text "d")⟩, .ended ⟨2, 4, .error .cancelled⟩,
      .ended ⟨1, 4, .error .cancelled⟩] := by
    rw [← hc]
    cbv
  have houtstanding : c.guarded.tracker.outstanding.length = 1 := by
    rw [← hc]
    cbv
  obtain ⟨-, hended, -, -, -, hreturns, -, hcount, -⟩ := hreturn
  refine ⟨?_, ?_, ?_⟩
  · rw [← hended, hlog]
    rfl
  · exact hreturns [_, _, _, _, _] 3 4 _ [_, _] hlog (by simp)
  · rw [← hcount, houtstanding]

end Whiteboard.Calls
