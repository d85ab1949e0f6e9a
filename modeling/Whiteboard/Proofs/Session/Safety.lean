import Mathlib.Data.List.Induction
import Whiteboard.Proofs.Session.Course

/-!
# Nothing stale reaches the canvas

Main statement: however a session is used and whatever its generator answers and when, only an execution that counts changes
the canvas, on the very canvas that it has worked for, and what is put there comes in the order in which it was said
(`Session.isSafe_history`).

The session goes the way of a course of its scheduler. There at most one execution is under way, what starts is what came in,
and what has been superseded never counts again; so a run that ends finds the canvas that it began with.
-/

namespace Whiteboard

theorem Course.run_append (c : Course α) (events later : List (Nat × Scheduler.Event α)) :
    c.run (events ++ later) = (c.run events).run later := List.foldl_append

/-- An execution that has been superseded never counts again. -/
theorem Course.isCurrent_of_superseded {c : Course α} (h : c.IsTracked) {tag : Nat} (htag : tag ∈ c.superseded)
    (later : List (Nat × Scheduler.Event α)) : (c.run later).scheduler.isCurrent tag = false := by
  have hmem : tag ∈ (c.run later).superseded := ((log_prefix_run c later).filterMap _).subset htag
  have hlt := ((h.run later).overtaken tag hmem).1
  rw [Scheduler.isCurrent, (h.run later).live, beq_eq_false_iff_ne]
  omega

/-- What is found in one more step comes before what is found in the others. -/
theorem filterMap_history_cons {step : σ → ε → σ} (f : Moment σ ε → Option β) (s : σ) (event : ε) (rest : List ε) :
    (history step s (event :: rest)).filterMap f =
      (f ⟨s, event, step s event⟩).toList ++ (history step (step s event) rest).filterMap f := by
  rw [history, List.filterMap_cons]
  cases f ⟨s, event, step s event⟩ <;> rfl

namespace Session

variable {s : Session σ ρ} {c : Course String} {actions : List Action} {m : Moment (Session σ ρ) Action}
  {start : Start String}

/-- However a session is used, it goes on the way of its course: what counts of what has been said comes in, and the executions
that change the canvas have started in this order. -/
theorem Follows.run (h : s.Follows c) (htracked : c.IsTracked) (actions : List Action) :
    ∃ events, (actions.foldl Session.perform s).Follows (c.run events) ∧
      (c.run events).log.filterMap (·.enqueued?) = c.log.filterMap (·.enqueued?) ++
        (history Session.perform s actions).filterMap (fun m => m.before.accepted? m.event) ∧
      ∀ earlier, List.Sublist (earlier ++ c.tasks) c.starts →
        List.Sublist (earlier ++ (history Session.perform s actions).filterMap applied? ++ (c.run events).tasks)
          (c.run events).starts := by
  induction actions generalizing s c with
  | nil =>
    refine ⟨[], h, (List.append_nil _).symm, fun earlier hsub => ?_⟩
    simpa [history, Course.run] using hsub
  | cons a actions ih =>
    obtain ⟨events, hadvances⟩ := h.perform htracked a
    obtain ⟨later, hfollows, henqueued, horder⟩ := ih hadvances.follows (htracked.run events)
    refine ⟨events ++ later, ?_, ?_, fun earlier hsub => ?_⟩
    · rw [Course.run_append]
      exact hfollows
    · rw [Course.run_append, henqueued, hadvances.enqueued, filterMap_history_cons, List.append_assoc]
    · rw [Course.run_append, filterMap_history_cons, ← List.append_assoc earlier]
      exact horder _ (hadvances.order earlier hsub)

/-- Every action of a history takes the session from one point of the course to another. -/
theorem Follows.exists_advances (h : s.Follows c) (htracked : c.IsTracked)
    {earlier later : List (Moment (Session σ ρ) Action)} (hsplit : history Session.perform s actions = earlier ++ m :: later) :
    ∃ done rest events now, earlier = history Session.perform s done ∧ later = history Session.perform m.after rest ∧
      m.before = done.foldl Session.perform s ∧ m.before.Follows (c.run events) ∧
      Advances m (c.run events) ((c.run events).run now) := by
  obtain ⟨done, rest, -, hearlier, hbefore, hafter, hlater⟩ := exists_of_history_eq hsplit
  obtain ⟨events, hfollows, -, -⟩ := h.run htracked done
  rw [← hbefore] at hfollows
  obtain ⟨now, hadvances⟩ := hfollows.perform (htracked.run events) m.event
  rw [← hafter] at hadvances
  exact ⟨done, rest, events, now, hearlier, hlater, hbefore, hfollows, hadvances⟩

/-- An execution that changes the canvas changes its revision. -/
theorem Applies.applied? (h : Applies m start) (hexecuting : m.before.executing? m.event = some start) :
    Session.applied? m = some start := by
  obtain ⟨-, run, answer, accepted, applied, -, -, happly, hstore, -⟩ := h
  obtain ⟨elements, hchange, -⟩ := Submission.exists_of_apply_ok
    (s := ⟨m.before.applier, m.after.clock.now, accepted.text⟩) (d := ⟨m.before.store, m.before.records⟩) happly
  have hrevision : m.after.store.revision = m.before.store.revision + 1 := by
    rw [hstore, (Prod.mk.inj hchange).1]
  rw [Session.applied?, if_neg (by omega), hexecuting]

/-- An action leaves the canvas and the records alone, or it is the execution that goes on, which changes them. -/
theorem Advances.unchanged_or {c' : Course String} (h : Advances m c c') :
    (applied? m = none ∧ m.after.store = m.before.store ∧ m.after.records = m.before.records) ∨
      ∃ start, m.before.executing? m.event = some start ∧ applied? m = some start ∧ Applies m start := by
  rcases h.effect with ⟨hstore, hrecords⟩ | ⟨start, hexecuting, happlies⟩
  · exact Or.inl ⟨applied?_of_store hstore, hstore, hrecords⟩
  · exact Or.inr ⟨start, hexecuting, happlies.applied? hexecuting, happlies⟩

/-- Every run under way has begun, and the canvas is the one that it began with. It has begun with the last action, or it was
under way before and had begun by then. -/
theorem exists_begun (h : s.Follows c) (htracked : c.IsTracked) (hjobs : s.jobs = []) {job : Job}
    (hjob : job ∈ (actions.foldl Session.perform s).jobs) (hstart : job.start? = some start) :
    ∃ b ∈ history Session.perform s actions, b.before.begun? b.event = some start ∧
      b.before.Keeps (actions.foldl Session.perform s) := by
  induction actions using List.reverseRecOn generalizing job with
  | nil =>
    rw [List.foldl_nil, hjobs] at hjob
    cases hjob
  | append_singleton done last ih =>
    obtain ⟨events, hfollows, -, -⟩ := h.run htracked done
    obtain ⟨later, hadvances⟩ := hfollows.perform (htracked.run events) last
    rw [List.foldl_concat] at hjob ⊢
    rw [history_concat]
    obtain ⟨hkeeps, hfrom⟩ := hadvances.jobs job hjob
    have hearlier : (∃ job ∈ (done.foldl Session.perform s).jobs, job.start? = some start) →
        ∃ b ∈ history Session.perform s done, b.before.begun? b.event = some start ∧
          b.before.Keeps ((done.foldl Session.perform s).perform last) := by
      rintro ⟨job, hjob, hstart⟩
      obtain ⟨b, hb, hbegun, hkept⟩ := ih hjob hstart
      exact ⟨b, hb, hbegun, hkept.trans hkeeps⟩
    have hnow : (done.foldl Session.perform s).begun? last = some start ∨
        ∃ job ∈ (done.foldl Session.perform s).jobs, job.start? = some start := by
      rcases hfrom with hold | hnew
      · exact Or.inr ⟨job, hold, hstart⟩
      · exact exists_of_executing? (hnew.symm.trans hstart)
    rcases hnow with hbegun | hold
    · exact ⟨_, List.mem_append_right _ List.mem_cons_self, hbegun, hkeeps⟩
    · obtain ⟨b, hb, hrest⟩ := hearlier hold
      exact ⟨b, List.mem_append_left _ hb, hrest⟩

/-- What a history is like in which nothing stale is put on the canvas. -/
structure IsSafe (moments : List (Moment (Session σ ρ) Action)) : Prop where
  /-- Nothing changes the canvas and the records but an execution that counts, with what it has been given. -/
  current : ∀ m ∈ moments,
    (applied? m = none ∧ m.after.store = m.before.store ∧ m.after.records = m.before.records) ∨
      ∃ start, applied? m = some start ∧ Applies m start
  /-- An execution that a flush or the end of all work has superseded does not change the canvas any more. -/
  overtaken : ∀ earlier m later tag, moments = earlier ++ m :: later → m.before.overtaken? m.event = some tag →
    ∀ n ∈ later, ∀ start, applied? n = some start → start.generation ≠ tag
  /-- The canvas that an execution changes is the one that it began with. -/
  unchanged : ∀ earlier m later start, moments = earlier ++ m :: later → applied? m = some start →
    ∃ b ∈ earlier ++ [m], b.before.begun? b.event = some start ∧ b.before.Keeps m.before
  /-- What is put on the canvas comes in the order in which it was said, and each once. -/
  inOrder : List.Sublist ((moments.filterMap applied?).map (·.item))
    (moments.filterMap fun m => m.before.accepted? m.event)
  /-- No execution changes the canvas twice. -/
  increasing : (moments.filterMap applied?).Pairwise fun a b => a.generation < b.generation

/-- However a session is used, whatever its generator answers and whenever its timers fire and its calls end: nothing stale is
put on the canvas. -/
theorem isSafe_history (settings : Settings) (applier : Applier ρ) (generator : Generator σ) (generatorState : σ)
    (records : ρ) (store : Store) (actions : List Action) :
    IsSafe (history perform (ofSettings settings applier generator generatorState records store) actions) := by
  have hfirst := follows_ofSettings settings applier generator generatorState records store
  have htracked : (Course.ofTiming settings.timing : Course String).IsTracked := Course.isTracked_ofTiming settings.timing
  generalize hs : ofSettings settings applier generator generatorState records store = s at hfirst ⊢
  have hjobs : s.jobs = [] := hs ▸ rfl
  obtain ⟨events, hfollows, henqueued, horder⟩ := hfirst.run htracked actions
  have happlied := (List.sublist_append_left _ _).trans (horder [] (List.Sublist.refl []))
  rw [List.nil_append] at happlied
  refine ⟨?_, ?_, ?_, ?_, ?_⟩
  · intro m hm
    obtain ⟨earlier, later, hsplit⟩ := List.append_of_mem hm
    obtain ⟨_, _, _, _, -, -, -, -, hadvances⟩ := hfirst.exists_advances htracked hsplit
    rcases hadvances.unchanged_or with hsame | ⟨start, -, hchanged⟩
    · exact Or.inl hsame
    · exact Or.inr ⟨start, hchanged⟩
  · intro earlier m later tag hsplit htag n hn start hstart heq
    obtain ⟨_, rest, before, now, -, rfl, -, -, hadvances⟩ := hfirst.exists_advances htracked hsplit
    have htracked' := (htracked.run before).run now
    obtain ⟨_, _, hsplit'⟩ := List.append_of_mem hn
    obtain ⟨_, _, between, _, -, -, -, hfollows', hadvances'⟩ := hadvances.follows.exists_advances htracked' hsplit'
    rcases hadvances'.unchanged_or with ⟨hnone, -⟩ | ⟨other, -, hother, hcurrent, -⟩
    · rw [hnone] at hstart
      cases hstart
    · obtain rfl := Option.some.inj (hother.symm.trans hstart)
      rw [hfollows'.scheduler, heq,
        Course.isCurrent_of_superseded htracked' (hadvances.overtaken tag htag) between] at hcurrent
      cases hcurrent
  · intro earlier m later start hsplit hstart
    obtain ⟨done, _, _, _, rfl, -, hbefore, -, hadvances⟩ := hfirst.exists_advances htracked hsplit
    rcases hadvances.unchanged_or with ⟨hnone, -⟩ | ⟨other, hexecuting, hother, -⟩
    · rw [hnone] at hstart
      cases hstart
    · obtain rfl := Option.some.inj (hother.symm.trans hstart)
      rcases exists_of_executing? hexecuting with hbegun | ⟨job, hjob, hjobStart⟩
      · exact ⟨m, List.mem_append_right _ List.mem_cons_self, hbegun, .refl _⟩
      · rw [hbefore] at hjob ⊢
        obtain ⟨b, hb, hbegun⟩ := exists_begun hfirst htracked hjobs hjob hjobStart
        exact ⟨b, List.mem_append_left _ hb, hbegun⟩
  · have hlatest := ((Course.holdsLatest_ofTiming settings.timing).run events).subsequence
    rw [henqueued] at hlatest
    exact (happlied.map _).trans ((List.sublist_append_left _ _).trans hlatest)
  · exact (htracked.run events).increasing.sublist happlied

/-- A generator that takes a while to draw what was said as a node. -/
def draws : Generator Unit
  | (), .propose request | (), .revise request _ _ =>
    (⟨100, .ok (.text ("flowchart TD\n    " ++ request.transcript ++ "\n"))⟩, ())

/-- What is said while an execution is under way supersedes it once it is flushed, and only the second diagram is drawn, on the
canvas with which its execution began. -/
theorem isSafe_history_flushed :
    let s : Session Unit (Entries Record) := ofSettings {} ⟨Desk.boxes, .memory, "canvas", .replaceCanvas⟩ draws () [] {}
    let actions := [.hear ⟨"first", true, 1⟩, .next none, .next none, .hear ⟨"second", true, 1⟩, .flush, .next none,
      .next none, .next none]
    let moments := history perform s actions
    moments.filterMap (fun m => m.before.accepted? m.event) = ["first", "second"] ∧
      moments.filterMap (fun m => m.before.overtaken? m.event) = [1] ∧
      moments.filterMap applied? = [⟨"second", 3⟩] ∧
      ((actions.foldl perform s).store.canvas.scene.nodes.map (·.id) = ["second"]) ∧
      ∃ b ∈ moments, ∃ m ∈ moments, b.before.begun? b.event = some ⟨"second", 3⟩ ∧ applied? m = some ⟨"second", 3⟩ ∧
        b.before.Keeps m.before := by
  intro s actions moments
  have happlied : moments.filterMap applied? = [⟨"second", 3⟩] := by decide +kernel
  refine ⟨by decide +kernel, by decide +kernel, happlied, by decide +kernel, ?_⟩
  have hsafe := isSafe_history {} ⟨Desk.boxes, .memory, "canvas", .replaceCanvas⟩ draws () ([] : Entries Record) {} actions
  obtain ⟨m, hm, hstart⟩ := List.mem_filterMap.1 (happlied ▸ List.mem_singleton_self (⟨"second", 3⟩ : Start String))
  obtain ⟨earlier, later, hsplit⟩ := List.append_of_mem hm
  obtain ⟨b, hb, hbegun, hkeeps⟩ := hsafe.unchanged earlier m later _ hsplit hstart
  have hmoment : b ∈ moments := by
    rw [hsplit]
    rcases List.mem_append.1 hb with hb | hb
    · exact List.mem_append_left _ hb
    · exact List.mem_append_right _ (List.mem_singleton.1 hb ▸ List.mem_cons_self)
  exact ⟨b, hmoment, m, hm, hbegun, hstart, hkeeps⟩

end Session

end Whiteboard
