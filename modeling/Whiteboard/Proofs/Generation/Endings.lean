import Mathlib.Data.List.Nodup
import Whiteboard.Proofs.Generation.Calls

/-!
# What guarded calls are to end with

Whatever has happened, each call that has begun and has neither ended nor been dropped has exactly one ending to come: its own
reply or the end of its time while it waits, and that it was given up once it has been. This is the invariant that a history of
guarded calls keeps (`IsTracked.run`), and from it follows what a call that has returned must have returned (`Log.AllReturn`).
-/

namespace Whiteboard

namespace Reply

variable (r : Reply) (limit : Nat)

theorem delay_limited : (r.limited limit).delay = min r.delay limit := by
  unfold limited
  split
  · rename_i h
    exact (Nat.min_eq_left h).symm
  · rename_i h
    exact (Nat.min_eq_right (Nat.le_of_not_le h)).symm

theorem answer_limited : (r.limited limit).answer = if r.delay ≤ limit then r.answer else .error (.timedOut limit) := by
  unfold limited
  split <;> rfl

end Reply

namespace Calls

open GuardedCalls (Ending Outcome)

/-- What is to come of a call. -/
def Phase.endings (limit id : Nat) : Phase → List Ending
  | .closed => []
  | .waiting _ reply => [⟨id, (reply.limited limit).answer⟩]
  | .givenUp _ => [⟨id, .error .cancelled⟩]

namespace Log

/-- A call has returned what it should: it began before, and was neither dropped nor had it returned since. If all calls have
been given up since, it returns that it was; otherwise what its generator replied, if the reply came within the limit, and
otherwise that the time was up, in either case without delay. -/
def IsReturn (limit : Nat) (before : List Note) (o : Outcome) : Prop :=
  ∃ earlier time reply since, before = earlier ++ .began o.call time reply :: since ∧
    (∀ n ∈ since, n.closes o.call = false) ∧
    (o.answer = if since.any (·.cancels) then .error .cancelled
      else if reply.delay ≤ limit then reply.answer else .error (.timedOut limit)) ∧
    (since.any (·.cancels) = false → o.time = time + min reply.delay limit)

/-- All calls that have returned have returned what they should. -/
def AllReturn (limit : Nat) (log : List Note) : Prop :=
  ∀ before o later, log = before ++ .ended o :: later → IsReturn limit before o

/-- One more note is no further return, or is one as it should be. -/
theorem AllReturn.concat {limit : Nat} {log : List Note} {n : Note} (h : AllReturn limit log)
    (hn : ∀ o, n.ended? = some o → IsReturn limit log o) : AllReturn limit (log ++ [n]) := by
  intro before o later heq
  rcases List.eq_nil_or_concat later with rfl | ⟨later, m, rfl⟩
  · obtain ⟨rfl, hsame⟩ := List.append_inj' heq rfl
    obtain rfl := List.singleton_inj.1 hsame
    exact hn o rfl
  · rw [List.concat_eq_append, ← List.cons_append, ← List.append_assoc] at heq
    exact h before o later (List.append_inj' heq rfl).1

end Log

open Log

/-- The calls under way, the clock and the outcomes are right about all that has happened. -/
structure IsTracked (limit : Nat) (c : Calls σ) : Prop where
  limited : c.guarded.limit = limit
  begun : c.log.filterMap (·.begun?) = List.range c.guarded.tracker.next
  outcomes : c.guarded.outcomes = c.log.filterMap (·.ended?)
  outstanding : ∀ id, id ∈ c.guarded.tracker.outstanding ↔ ∃ time reply, phase c.log id = .waiting time reply
  nodup : c.guarded.tracker.outstanding.Nodup
  endings : ∀ id, (c.guarded.clock.events.filter (·.call == id)).Perm ((phase c.log id).endings limit id)
  alarms : ∀ a ∈ c.guarded.clock.alarms, c.guarded.clock.now ≤ a.due ∧ a.due ≤ c.guarded.clock.now + limit ∧
    ∃ time reply, phase c.log a.event.call = .waiting time reply ∧ a.due = time + min reply.delay limit
  ready : ∀ e ∈ c.guarded.clock.ready, ∀ time reply, phase c.log e.call = .waiting time reply →
    c.guarded.clock.now = time + min reply.delay limit
  young : ∀ id, ∀ time ∈ (phase c.log id).began?, c.guarded.clock.now ≤ time + limit
  returns : AllReturn limit c.log

/-- Before anything happens the calls are tracked. -/
theorem isTracked_ofGenerator (limit : Nat) (generator : Generator σ) (state : σ) :
    (ofGenerator limit generator state).IsTracked limit := by
  refine ⟨rfl, rfl, rfl, ?_, List.nodup_nil, fun id => List.Perm.refl _, nofun, nofun, fun id => nofun, ?_⟩
  · intro id
    simp [ofGenerator, phase]
  · intro before o later h
    simp [ofGenerator] at h

/-! ## Endings -/

/-- A call that has ended is closed, and the phases of others stay. -/
theorem phase_ended (log : List Note) (o : Outcome) (id : Nat) :
    phase (log ++ [.ended o]) id = if o.call = id then .closed else phase log id := phase_concat log _ id

section

variable {limit : Nat} {c : Calls σ} {ending : Ending}

/-- An ending that the clock holds is the one that its call is to come to. -/
theorem IsTracked.eq_of_mem_events (h : c.IsTracked limit) (hmem : ending ∈ c.guarded.clock.events) :
    (phase c.log ending.call).endings limit ending.call = [ending] := by
  have hfilter : ending ∈ c.guarded.clock.events.filter (·.call == ending.call) := by simp [hmem]
  have hin := (h.endings ending.call).mem_iff.1 hfilter
  cases hphase : phase c.log ending.call with
  | closed => simp [hphase, Phase.endings] at hin
  | waiting time reply =>
    rw [hphase, Phase.endings, List.mem_singleton] at hin
    rw [Phase.endings, ← hin]
  | givenUp time =>
    rw [hphase, Phase.endings, List.mem_singleton] at hin
    rw [Phase.endings, ← hin]

/-- A call that is to end now returns what it should. -/
theorem IsTracked.isReturn (h : c.IsTracked limit) (hready : ending ∈ c.guarded.clock.ready) :
    IsReturn limit c.log ⟨ending.call, c.guarded.clock.now, ending.answer⟩ := by
  have hending := h.eq_of_mem_events (List.mem_append_left _ hready)
  have hopen : phase c.log ending.call ≠ .closed := by
    intro hclosed
    rw [hclosed] at hending
    cases hending
  obtain ⟨before, time, reply, since, hlog, hsince, hphase⟩ := exists_of_phase_ne_closed hopen
  refine ⟨before, time, reply, since, hlog, hsince, ?_, ?_⟩
  · rw [hphase] at hending
    split at hending
    · rename_i hcancels
      rw [Phase.endings, List.singleton_inj] at hending
      rw [if_pos hcancels, ← hending]
    · rename_i hcancels
      rw [Phase.endings, List.singleton_inj] at hending
      rw [if_neg hcancels, ← hending, ← Reply.answer_limited]
  · intro hcancels
    rw [hcancels, if_neg Bool.false_ne_true] at hphase
    exact h.ready ending hready time reply hphase

/-- A call has one ending: where it is ready none is set for later. -/
theorem IsTracked.call_ne (h : c.IsTracked limit) (hready : ending ∈ c.guarded.clock.ready) {a : Alarm Ending}
    (ha : a ∈ c.guarded.clock.alarms) : ending.call ≠ a.event.call := by
  intro hcall
  have hone : (c.guarded.clock.events.filter (·.call == ending.call)).length ≤ 1 := by
    rw [(h.endings ending.call).length_eq]
    cases phase c.log ending.call <;> simp [Phase.endings]
  have hfirst : 0 < (c.guarded.clock.ready.filter (·.call == ending.call)).length :=
    List.length_pos_of_mem (List.mem_filter.2 ⟨hready, by simp⟩)
  have hsecond : 0 < ((c.guarded.clock.alarms.map (·.event)).filter (·.call == ending.call)).length :=
    List.length_pos_of_mem (List.mem_filter.2 ⟨List.mem_map_of_mem ha, by simp [hcall]⟩)
  rw [Clock.events, List.filter_append, List.length_append] at hone
  omega

/-- A call that is to end now ends, and no other call is touched. -/
theorem IsTracked.finish (h : c.IsTracked limit) {first last : List Ending}
    (hready : c.guarded.clock.ready = first ++ ending :: last) :
    IsTracked limit
      { guarded := { c.guarded with clock := { c.guarded.clock with ready := first ++ last } }.finish ending
        log := c.log ++ [.ended ⟨ending.call, c.guarded.clock.now, ending.answer⟩] } := by
  have hmem : ending ∈ c.guarded.clock.ready := by simp [hready]
  have hending := h.eq_of_mem_events (List.mem_append_left _ hmem)
  have hphase := phase_ended c.log ⟨ending.call, c.guarded.clock.now, ending.answer⟩
  have hevents : c.guarded.clock.events.Perm
      (ending :: { c.guarded.clock with ready := first ++ last }.events) := by
    simp only [Clock.events, hready, List.append_assoc, List.cons_append]
    exact List.perm_middle
  refine ⟨h.limited, ?_, ?_, ?_, h.nodup.filter _, ?_, ?_, ?_, ?_, ?_⟩
  · simpa [GuardedCalls.finish, CallTracker.finish, Note.begun?] using h.begun
  · simp [GuardedCalls.finish, Note.ended?, h.outcomes]
  · intro id
    simp only [GuardedCalls.finish, CallTracker.finish, List.mem_filter, bne_iff_ne, hphase, h.outstanding id]
    split <;> grind
  · intro id
    have hperm := (hevents.filter (·.call == id)).symm.trans (h.endings id)
    rw [hphase]
    split
    · rename_i hid
      subst hid
      rw [hending, List.filter_cons_of_pos (by simp)] at hperm
      exact hperm.cons_inv
    · rename_i hid
      rwa [List.filter_cons_of_neg (by simpa using hid)] at hperm
  · intro a ha
    obtain ⟨hnow, hdue, time, reply, hwaiting, htime⟩ := h.alarms a ha
    refine ⟨hnow, hdue, time, reply, ?_, htime⟩
    rwa [hphase, if_neg (h.call_ne hmem ha)]
  · intro e he time reply hwaiting
    have hkept : e ∈ c.guarded.clock.ready := by
      rw [hready]
      exact ((List.sublist_cons_self ending last).append_left first).subset he
    rw [hphase] at hwaiting
    split at hwaiting
    · cases hwaiting
    · exact h.ready e hkept time reply hwaiting
  · intro id time htime
    rw [hphase] at htime
    split at htime
    · cases htime
    · exact h.young id time htime
  · refine h.returns.concat fun o ho => ?_
    cases ho
    exact h.isReturn hmem

/-! ## Beginnings -/

/-- Calls after another one has begun; the clock holds its ending. -/
def begin (c : Calls σ) (call : Call) (clock : Clock Ending) : Calls σ where
  guarded :=
    { c.guarded with
      tracker := c.guarded.tracker.begin.2
      state := (c.guarded.generator c.guarded.state call).2
      clock }
  log := c.log ++ [.began c.guarded.tracker.next c.guarded.clock.now (c.guarded.generator c.guarded.state call).1]

/-- The number of the next call has not been given to any. -/
theorem IsTracked.phase_next (h : c.IsTracked limit) : phase c.log c.guarded.tracker.next = .closed := by
  by_contra hopen
  obtain ⟨before, time, reply, since, hlog, -⟩ := exists_of_phase_ne_closed hopen
  have hmem : c.guarded.tracker.next ∈ c.log.filterMap (·.begun?) := by simp [hlog, Note.begun?]
  rw [h.begun, List.mem_range] at hmem
  exact Nat.lt_irrefl _ hmem

/-- Nothing is to end that has not begun. -/
theorem IsTracked.call_ne_next (h : c.IsTracked limit) (hmem : ending ∈ c.guarded.clock.events) :
    c.guarded.tracker.next ≠ ending.call := by
  intro hcall
  have hending := h.eq_of_mem_events hmem
  rw [← hcall, h.phase_next] at hending
  cases hending

/-- A call begins: its ending is set for the time at which it is to come, be it now or later. -/
theorem IsTracked.begin (h : c.IsTracked limit) {call : Call} {reply : Reply} {clock : Clock Ending}
    (hreply : (c.guarded.generator c.guarded.state call).1 = reply)
    (hnow : clock.now = c.guarded.clock.now)
    (hevents : clock.events.Perm (c.guarded.clock.events ++ [⟨c.guarded.tracker.next, (reply.limited limit).answer⟩]))
    (hready : ∀ e ∈ clock.ready, e ∈ c.guarded.clock.ready ∨ e.call = c.guarded.tracker.next ∧ min reply.delay limit = 0)
    (halarms : ∀ a ∈ clock.alarms, a ∈ c.guarded.clock.alarms ∨
      a.event.call = c.guarded.tracker.next ∧ a.due = c.guarded.clock.now + min reply.delay limit) :
    (c.begin call clock).IsTracked limit := by
  have hphase : ∀ id, phase (c.begin call clock).log id =
      if c.guarded.tracker.next = id then .waiting c.guarded.clock.now reply else phase c.log id := by
    intro id
    rw [Calls.begin, hreply]
    exact phase_concat c.log _ id
  have hfresh : ∀ id ∈ c.guarded.tracker.outstanding, id ≠ c.guarded.tracker.next := by
    rintro id hid rfl
    obtain ⟨time, other, hwaiting⟩ := (h.outstanding _).1 hid
    rw [h.phase_next] at hwaiting
    cases hwaiting
  refine ⟨h.limited, ?_, ?_, ?_, ?_, ?_, ?_, ?_, ?_, ?_⟩
  · change (c.log ++ [_]).filterMap Note.begun? = List.range (c.guarded.tracker.next + 1)
    rw [List.filterMap_append, h.begun, List.range_succ]
    rfl
  · simp [Calls.begin, Note.ended?, h.outcomes]
  · intro id
    rw [hphase]
    simp only [Calls.begin, CallTracker.begin, List.mem_append, List.mem_singleton, h.outstanding id]
    split <;> grind
  · refine List.nodup_append.2 ⟨h.nodup, List.nodup_singleton _, ?_⟩
    intro id hid other hother
    exact List.mem_singleton.1 hother ▸ hfresh id hid
  · intro id
    refine (hevents.filter (·.call == id)).trans ?_
    rw [hphase, List.filter_append]
    split
    · rename_i hid
      subst hid
      have hnone := h.endings c.guarded.tracker.next
      rw [h.phase_next, Phase.endings, List.perm_nil] at hnone
      simp [hnone, Phase.endings]
    · rename_i hid
      simpa [hid] using h.endings id
  · intro a ha
    have hclock : (c.begin call clock).guarded.clock = clock := rfl
    rw [hclock] at ha ⊢
    rw [hnow]
    rcases halarms a ha with ha | ⟨hcall, hdue⟩
    · obtain ⟨hlow, hhigh, time, other, hwaiting, htime⟩ := h.alarms a ha
      refine ⟨hlow, hhigh, time, other, ?_, htime⟩
      rwa [hphase, if_neg (h.call_ne_next (List.mem_append_right _ (List.mem_map_of_mem ha)))]
    · exact ⟨by omega, by omega, c.guarded.clock.now, reply, by rw [hphase, if_pos hcall.symm], hdue⟩
  · intro e he time other hwaiting
    rw [hphase] at hwaiting
    rcases hready e he with he | ⟨hcall, hdelay⟩
    · rw [if_neg (h.call_ne_next (List.mem_append_left _ he))] at hwaiting
      exact hnow.trans (h.ready e he time other hwaiting)
    · rw [if_pos hcall.symm] at hwaiting
      cases hwaiting
      exact hnow.trans (by omega)
  · intro id time htime
    rw [hphase] at htime
    split at htime
    · cases htime
      exact Nat.le_trans (Nat.le_of_eq hnow) (Nat.le_add_right _ _)
    · exact Nat.le_trans (Nat.le_of_eq hnow) (h.young id time htime)
  · exact h.returns.concat fun o ho => by cases ho

/-! ## Drops, cancellations and time -/

/-- A call is dropped: it is taken out, and no other call is touched. -/
theorem IsTracked.drop (h : c.IsTracked limit) (id : Nat) :
    IsTracked limit { guarded := c.guarded.drop id, log := c.log ++ [.dropped id] } := by
  have hphase : ∀ other, phase (c.log ++ [.dropped id]) other = if id = other then .closed else phase c.log other :=
    phase_concat c.log _
  refine ⟨h.limited, ?_, ?_, ?_, h.nodup.filter _, ?_, ?_, ?_, ?_, ?_⟩
  · simpa [GuardedCalls.drop, CallTracker.finish, Note.begun?] using h.begun
  · simp [GuardedCalls.drop, Note.ended?, h.outcomes]
  · intro other
    simp only [GuardedCalls.drop, CallTracker.finish, List.mem_filter, bne_iff_ne, hphase, h.outstanding other]
    split <;> grind
  · intro other
    rw [hphase]
    simp only [GuardedCalls.drop, Clock.events_drop, List.filter_filter]
    split
    · rename_i hid
      subst hid
      simp [Phase.endings]
    · rename_i hid
      refine .trans (.of_eq (List.filter_congr fun e _ => ?_)) (h.endings other)
      by_cases hcall : e.call = other <;> simp [hcall, Ne.symm hid]
  · intro a ha
    obtain ⟨ha, hkept⟩ := List.mem_filter.1 ha
    obtain ⟨hnow, hdue, time, reply, hwaiting, htime⟩ := h.alarms a ha
    refine ⟨hnow, hdue, time, reply, ?_, htime⟩
    rw [hphase, if_neg]
    · exact hwaiting
    · rintro rfl
      simp at hkept
  · intro e he time reply hwaiting
    rw [hphase] at hwaiting
    split at hwaiting
    · cases hwaiting
    · exact h.ready e (List.mem_filter.1 he).1 time reply hwaiting
  · intro other time htime
    rw [hphase] at htime
    split at htime
    · cases htime
    · exact h.young other time htime
  · exact h.returns.concat fun o ho => by cases ho

/-- A call under way is to end with having been given up, and whatever else is to end stays so. -/
theorem IsTracked.endings_cancelAll (h : c.IsTracked limit) (id count : Nat) :
    (c.guarded.cancelAll.2.clock.events.filter (·.call == id)).Perm
      (((phase c.log id).after id (.cancelled count)).endings limit id) := by
  refine ((Clock.events_postAll _ _).filter _).trans ?_
  rw [Clock.events_drop, List.filter_append, List.filter_filter, List.filter_map]
  have hgiven : c.guarded.tracker.outstanding.filter ((·.call == id) ∘ fun id => (⟨id, .error .cancelled⟩ : Ending)) =
      List.replicate (c.guarded.tracker.outstanding.count id) id := List.filter_beq _
  simp only [hgiven]
  by_cases hid : id ∈ c.guarded.tracker.outstanding
  · obtain ⟨time, reply, hwaiting⟩ := (h.outstanding id).1 hid
    have hnone : c.guarded.clock.events.filter
        (fun e => e.call == id && !c.guarded.tracker.outstanding.contains e.call) = [] := by
      rw [List.filter_eq_nil_iff]
      rintro e - hkept
      simp only [Bool.and_eq_true, beq_iff_eq, Bool.not_eq_true', List.contains_eq_mem, decide_eq_false_iff_not] at hkept
      exact hkept.2 (hkept.1 ▸ hid)
    rw [hnone, List.count_eq_one_of_mem h.nodup hid, hwaiting]
    exact .refl _
  · rw [List.count_eq_zero_of_not_mem hid, List.replicate_zero, List.map_nil, List.append_nil]
    have hsame : (phase c.log id).after id (.cancelled count) = phase c.log id := by
      cases hopen : phase c.log id with
      | waiting time reply => exact absurd ((h.outstanding id).2 ⟨time, reply, hopen⟩) hid
      | closed => rfl
      | givenUp time => rfl
    rw [hsame]
    refine .trans (.of_eq (List.filter_congr fun e _ => ?_)) (h.endings id)
    by_cases hcall : e.call = id
    · simp [hcall, hid]
    · simp [hcall]

/-- All calls under way are given up: each of them is to end now, and none waits for its reply any longer. -/
theorem IsTracked.cancelAll (h : c.IsTracked limit) (count : Nat) :
    IsTracked limit { guarded := c.guarded.cancelAll.2, log := c.log ++ [.cancelled count] } := by
  have hphase : ∀ id, phase (c.log ++ [.cancelled count]) id = (phase c.log id).after id (.cancelled count) :=
    phase_concat c.log _
  have hnever : ∀ id time reply, phase (c.log ++ [.cancelled count]) id ≠ .waiting time reply := by
    intro id time reply
    rw [hphase]
    cases phase c.log id <;> nofun
  refine ⟨h.limited, ?_, ?_, ?_, List.nodup_nil, ?_, ?_, ?_, ?_, ?_⟩
  · simpa [GuardedCalls.cancelAll, CallTracker.cancelAll, Note.begun?] using h.begun
  · simp [GuardedCalls.cancelAll, Note.ended?, h.outcomes]
  · intro id
    simp [GuardedCalls.cancelAll, CallTracker.cancelAll, hnever]
  · intro id
    rw [hphase]
    exact h.endings_cancelAll id count
  · intro a ha
    obtain ⟨ha, hkept⟩ := List.mem_filter.1 ha
    obtain ⟨-, -, time, reply, hwaiting, -⟩ := h.alarms a ha
    have hgone := (h.outstanding _).2 ⟨time, reply, hwaiting⟩
    simp [hgone] at hkept
  · exact fun e _ time reply hwaiting => absurd hwaiting (hnever _ _ _)
  · intro id time htime
    rw [hphase, Phase.began?_after_cancelled] at htime
    exact h.young id time htime
  · exact h.returns.concat fun o ho => by cases ho

/-- Where no call is to end now, the ending of each open call is set for later. -/
theorem IsTracked.exists_alarm (h : c.IsTracked limit) (hidle : c.guarded.clock.ready = []) {id : Nat}
    (hopen : phase c.log id ≠ .closed) : ∃ a ∈ c.guarded.clock.alarms, a.event.call = id := by
  obtain ⟨ending, hending⟩ : ∃ ending, ending ∈ (phase c.log id).endings limit id := by
    cases hphase : phase c.log id with
    | closed => exact absurd hphase hopen
    | waiting time reply => exact ⟨_, List.mem_singleton_self _⟩
    | givenUp time => exact ⟨_, List.mem_singleton_self _⟩
  obtain ⟨hset, hcall⟩ := List.mem_filter.1 ((h.endings id).mem_iff.2 hending)
  rw [Clock.events, hidle, List.nil_append] at hset
  obtain ⟨a, ha, rfl⟩ := List.mem_map.1 hset
  exact ⟨a, ha, beq_iff_eq.1 hcall⟩

/-- Time goes by, up to the next ending. -/
theorem IsTracked.advance (h : c.IsTracked limit) (ms : Nat) :
    IsTracked limit { c with guarded := { c.guarded with clock := c.guarded.clock.advance ms } } := by
  rcases c.guarded.clock.advance_cases (fun a ha => (h.alarms a ha).1) ms with hsame | ⟨hidle, time, hnow, hleast, hjump⟩
  · rwa [hsame]
  · rw [hjump]
    refine ⟨h.limited, h.begun, h.outcomes, h.outstanding, h.nodup, ?_, ?_, ?_, ?_, h.returns⟩
    · exact fun id => ((Clock.events_jump _ time).filter _).trans (h.endings id)
    · intro a ha
      obtain ⟨ha, hlater⟩ := (Clock.mem_alarms_jump _).1 ha
      obtain ⟨-, hdue, hwaits⟩ := h.alarms a ha
      exact ⟨Nat.le_of_lt hlater, Nat.le_trans hdue (Nat.add_le_add_right hnow limit), hwaits⟩
    · intro e he began reply hwaiting
      rcases (Clock.mem_ready_jump _).1 he with he | ⟨a, ha, hdue, rfl⟩
      · rw [hidle] at he
        cases he
      · obtain ⟨-, -, began', reply', hwaiting', htime⟩ := h.alarms a ha
        rw [hwaiting'] at hwaiting
        cases hwaiting
        exact (Nat.le_antisymm (hleast a ha) hdue).trans htime
    · intro id began hbegan
      have hopen : phase c.log id ≠ .closed := by
        intro hclosed
        rw [hclosed] at hbegan
        cases hbegan
      obtain ⟨a, ha, rfl⟩ := h.exists_alarm hidle hopen
      obtain ⟨-, -, began', reply', hwaiting', htime⟩ := h.alarms a ha
      rw [hwaiting'] at hbegan
      cases hbegan
      have hlate := hleast a ha
      simp only [Clock.jump]
      omega

/-! ## Histories -/

section

variable (c)

/-- Where nothing has ended only what has been noted is new. -/
theorem after_of_idle (notes : List Note) {g : GuardedCalls σ} (h : g.outcomes = c.guarded.outcomes) :
    c.after notes g = { guarded := g, log := c.log ++ notes } := by
  simp [after, h]

/-- With an ending, the log gets this ending behind the notes. -/
theorem after_of_ended (notes : List Note) {g : GuardedCalls σ} {o : Outcome} (h : g.outcomes = c.guarded.outcomes ++ [o]) :
    c.after notes g = { guarded := g, log := c.log ++ notes ++ [.ended o] } := by
  simp [after, h]

theorem step_drop (id : Nat) :
    c.step (.drop id) = { guarded := c.guarded.drop id, log := c.log ++ [.dropped id] } := c.after_of_idle _ rfl

theorem step_cancelAll :
    c.step .cancelAll = { guarded := c.guarded.cancelAll.2, log := c.log ++ [.cancelled c.guarded.cancelAll.1] } :=
  c.after_of_idle _ rfl

theorem step_pass (ms : Nat) :
    c.step (.pass ms) = { c with guarded := { c.guarded with clock := c.guarded.clock.advance ms } } :=
  (c.after_of_idle [] (g := { c.guarded with clock := c.guarded.clock.advance ms }) rfl).trans (by rw [List.append_nil])

/-- What happens where an ending is taken from the clock. -/
theorem step_finish_of_take? {place : Nat} {ending : Ending} {clock : Clock Ending}
    (h : c.guarded.clock.take? place = some (ending, clock)) :
    c.step (.finish place) =
      { guarded := { c.guarded with clock }.finish ending
        log := c.log ++ [.ended ⟨ending.call, clock.now, ending.answer⟩] } := by
  rw [step, h]
  exact (c.after_of_ended [] rfl).trans (by rw [List.append_nil])

/-- A call that is to end now ends, or there is none at the given place. -/
theorem step_finish (place : Nat) :
    c.step (.finish place) = c ∨ ∃ first ending last, c.guarded.clock.ready = first ++ ending :: last ∧
      c.step (.finish place) =
        { guarded := { c.guarded with clock := { c.guarded.clock with ready := first ++ last } }.finish ending
          log := c.log ++ [.ended ⟨ending.call, c.guarded.clock.now, ending.answer⟩] } := by
  cases htake : c.guarded.clock.take? place with
  | none => exact Or.inl (by rw [step, htake])
  | some taken =>
    obtain ⟨ending, clock⟩ := taken
    obtain ⟨first, last, hready, rfl⟩ := Clock.exists_of_take? htake
    exact Or.inr ⟨first, ending, last, hready, c.step_finish_of_take? htake⟩

/-- A call begins, and it ends with that if it is to end at once. -/
theorem step_call (call : Call) :
    let reply := (c.guarded.generator c.guarded.state call).1.limited c.guarded.limit
    let ending : Ending := ⟨c.guarded.tracker.next, reply.answer⟩
    c.step (.call call) =
      if reply.delay = 0 then
        let begun := c.begin call c.guarded.clock
        { guarded := begun.guarded.finish ending
          log := begun.log ++ [.ended ⟨ending.call, c.guarded.clock.now, ending.answer⟩] }
      else c.begin call (c.guarded.clock.setAlarm reply.delay ending) := by
  intro reply ending
  have hcall : c.step (.call call) = c.after
      [.began (c.guarded.call call).1 c.guarded.clock.now (c.guarded.generator c.guarded.state call).1]
      (c.guarded.call call).2 := rfl
  by_cases hdelay : reply.delay = 0
  · have hguarded : c.guarded.call call =
        (c.guarded.tracker.next, (c.begin call c.guarded.clock).guarded.finish ending) := if_pos hdelay
    rw [if_pos hdelay, hcall, hguarded]
    exact c.after_of_ended _ rfl
  · have hguarded : c.guarded.call call =
        (c.guarded.tracker.next, (c.begin call (c.guarded.clock.setAlarm reply.delay ending)).guarded) := if_neg hdelay
    rw [if_neg hdelay, hcall, hguarded]
    exact c.after_of_idle _ rfl

end

/-- A call begins; one that is to end at once ends like one that is ready. -/
theorem IsTracked.call (h : c.IsTracked limit) (call : Call) : (c.step (.call call)).IsTracked limit := by
  rw [step_call, h.limited]
  generalize hreply : (c.guarded.generator c.guarded.state call).1 = reply
  have hmin := reply.delay_limited limit
  simp only
  generalize hending : (⟨c.guarded.tracker.next, (reply.limited limit).answer⟩ : Ending) = ending
  have hnext : ending.call = c.guarded.tracker.next := by rw [← hending]
  split
  · rename_i hdelay
    have hposted : (c.begin call (c.guarded.clock.post ending)).IsTracked limit := by
      refine h.begin hreply rfl (hending ▸ c.guarded.clock.events_postAll [ending]) ?_ fun a ha => Or.inl ha
      intro e he
      rcases List.mem_append.1 he with he | he
      · exact Or.inl he
      · exact Or.inr ⟨List.mem_singleton.1 he ▸ hnext, hmin ▸ hdelay⟩
    have hready : (c.begin call (c.guarded.clock.post ending)).guarded.clock.ready =
        c.guarded.clock.ready ++ ending :: [] := rfl
    have hended := hposted.finish hready
    rw [List.append_nil] at hended
    subst hending
    exact hended
  · subst hending
    refine h.begin hreply rfl (.of_eq (c.guarded.clock.events_setAlarm _ _)) (fun e he => Or.inl he) ?_
    intro a ha
    rcases List.mem_append.1 ha with ha | ha
    · exact Or.inl ha
    · rw [List.mem_singleton.1 ha]
      exact Or.inr ⟨hnext, congrArg _ hmin⟩

/-- The invariant is kept, whatever happens. -/
theorem IsTracked.step (h : c.IsTracked limit) (event : Event) : (c.step event).IsTracked limit := by
  cases event with
  | call call => exact h.call call
  | drop id =>
    rw [step_drop]
    exact h.drop id
  | cancelAll =>
    rw [step_cancelAll]
    exact h.cancelAll _
  | finish place =>
    rcases c.step_finish place with hsame | ⟨first, ending, last, hready, hstep⟩
    · rwa [hsame]
    · rw [hstep]
      exact h.finish hready
  | pass ms =>
    rw [step_pass]
    exact h.advance ms

/-- The invariant is kept, however it goes on. -/
theorem IsTracked.run (h : c.IsTracked limit) (events : List Event) : (c.run events).IsTracked limit := by
  induction events generalizing c with
  | nil => exact h
  | cons event events ih => exact ih (h.step event)

end

end Calls

end Whiteboard
