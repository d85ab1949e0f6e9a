import Mathlib.Data.List.Induction
import Whiteboard.Canvas.Store
import Whiteboard.Proofs.History

/-!
# Transactions as single changes

Main statement: whatever is done to a store, in transactions or not, it goes through the same states and announces the same
changes as if every transaction were taken out and only what it comes to were done (`Store.transactions_flatten`). A
transaction that fails comes to what others have done in the meantime. One that succeeds comes to that and one change more,
which sets what the store holds to what the staged steps make of what it held when the transaction began.

Transactions may be nested: while one is under way, others may do to the store whatever they please, in transactions of
their own. So the statement is proved for actions and for the steps of a transaction at once, by recursion on both.
-/

namespace Whiteboard.Store

/-! ## What is done to a store -/

/-- What is done to a store at once: a change of what it holds, such as `Canvas.setScene` or `Canvas.commit`, a new
subscriber, or the end of a subscription. -/
inductive Deed where
  | change (f : Canvas → Canvas)
  | subscribe
  | unsubscribe (subscriber : Nat)

mutual

/-- What somebody does to a store. -/
inductive Action where
  | deed (d : Deed)
  /-- A transaction, which takes steps and then succeeds or fails. -/
  | transaction (steps : List Step) (succeeds : Bool)

/-- What happens while a transaction is under way. -/
inductive Step where
  /-- The copy is changed. -/
  | stage (f : Canvas → Canvas)
  /-- Somebody does something to the store itself. -/
  | outside (a : Action)

end

/-- What comes of a run: the store at its end, the states that the store has been in on the way, one for each deed, and
what has been announced. -/
structure Outcome where
  store : Store
  states : List Store := []
  notices : List Notice := []

/-- What comes of a run that goes on after another. -/
def Outcome.andThen (o : Outcome) (next : Store → Outcome) : Outcome :=
  ⟨(next o.store).store, o.states ++ (next o.store).states, o.notices ++ (next o.store).notices⟩

namespace Deed

/-- The deed changes what the store holds. -/
def isChange : Deed → Bool
  | .change _ => true
  | _ => false

/-- What a deed makes of what a store holds: only a change makes something else of it. -/
def effect : Deed → Canvas → Canvas
  | .change f, c => f c
  | _, c => c

/-- The store after a deed, and what is announced. -/
def perform (s : Store) : Deed → Store × List Notice
  | .change f => s.change f
  | .subscribe => (s.subscribe.2, [])
  | .unsubscribe n => ((s.unsubscribe n).2, [])

/-- The store after a deed. -/
def after (s : Store) (d : Deed) : Store := (d.perform s).1

/-- What comes of a deed. -/
def run (s : Store) (d : Deed) : Outcome := ⟨d.after s, [d.after s], (d.perform s).2⟩

end Deed

/-- What comes of deeds that are done one after the other. -/
def runDeeds (s : Store) : List Deed → Outcome
  | [] => ⟨s, [], []⟩
  | d :: rest => (d.run s).andThen fun s => runDeeds s rest

theorem runDeeds_append (s : Store) (ds es : List Deed) :
    runDeeds s (ds ++ es) = (runDeeds s ds).andThen fun s => runDeeds s es := by
  induction ds generalizing s with
  | nil => rfl
  | cons d ds ih => simp only [List.cons_append, runDeeds, ih, Outcome.andThen, List.append_assoc]

/-! ## Runs with transactions -/

/-- A transaction after something has been done to its store. -/
def meanwhile (t : Transaction) (o : Outcome) : Transaction :=
  { t with store := o.store, notices := t.notices ++ o.notices }

mutual

/-- What comes of an action. -/
def Action.run (s : Store) : Action → Outcome
  | .deed d => d.run s
  | .transaction steps succeeds =>
    let (t, states) := runSteps (.begin s) steps
    if succeeds then ⟨t.succeed.1, states ++ [t.succeed.1], t.succeed.2⟩ else ⟨t.fail.1, states, t.fail.2⟩

/-- A transaction after some steps, and the states that its store has been in on the way. -/
def runSteps (t : Transaction) : List Step → Transaction × List Store
  | [] => (t, [])
  | .stage f :: rest => runSteps (t.stage f) rest
  | .outside (.deed (.change f)) :: rest =>
    let (last, states) := runSteps (t.outside f) rest
    (last, (t.outside f).store :: states)
  | .outside a :: rest =>
    let (last, states) := runSteps (meanwhile t (a.run t.store)) rest
    (last, (a.run t.store).states ++ states)

end

/-- What comes of actions that are taken one after the other. -/
def runActions (s : Store) : List Action → Outcome
  | [] => ⟨s, [], []⟩
  | a :: rest => (a.run s).andThen fun s => runActions s rest

/-- What staged steps make of what a store holds. -/
def staged (c : Canvas) : List Step → Canvas
  | [] => c
  | .stage f :: rest => staged (f c) rest
  | .outside _ :: rest => staged c rest

mutual

/-- The deeds that an action comes to: a transaction comes to what others do in the meantime and, if it succeeds, to one
change, which takes no notice of what the store holds by then. -/
def Action.deeds (s : Store) : Action → List Deed
  | .deed d => [d]
  | .transaction steps succeeds =>
    outsideDeeds s steps ++ if succeeds then [.change fun _ => staged s.canvas steps] else []

/-- The deeds that others do to a store during the steps of a transaction. -/
def outsideDeeds (s : Store) : List Step → List Deed
  | [] => []
  | .stage _ :: rest => outsideDeeds s rest
  | .outside a :: rest => a.deeds s ++ outsideDeeds (runDeeds s (a.deeds s)).store rest

end

/-- The deeds that actions come to. -/
def deedsOf (s : Store) : List Action → List Deed
  | [] => []
  | a :: rest => a.deeds s ++ deedsOf (runDeeds s (a.deeds s)).store rest

/-! ## A run and its deeds -/

/-- A change of the store by somebody else is a deed that is done in the meantime. -/
theorem outside_eq_meanwhile (t : Transaction) (f : Canvas → Canvas) :
    t.outside f = meanwhile t ((Deed.change f).run t.store) := rfl

/-- Whatever somebody does to the store is done in the meantime. -/
theorem runSteps_outside (t : Transaction) (a : Action) (rest : List Step) :
    runSteps t (.outside a :: rest) =
      ((runSteps (meanwhile t (a.run t.store)) rest).1,
        (a.run t.store).states ++ (runSteps (meanwhile t (a.run t.store)) rest).2) := by
  rcases a with (f | _ | n) | ⟨steps, succeeds⟩
  · rw [runSteps, Action.run, ← outside_eq_meanwhile]
    rfl
  · rfl
  · rfl
  · rfl

mutual

/-- What comes of an action is what comes of its deeds. -/
theorem run_eq_runDeeds (s : Store) : ∀ a : Action, a.run s = runDeeds s (a.deeds s)
  | .deed d => by simp only [Action.run, Action.deeds, runDeeds, Outcome.andThen, List.append_nil, Deed.run]
  | .transaction steps succeeds => by
    rw [Action.run, Action.deeds, runSteps_eq_runDeeds (.begin s) steps, runDeeds_append]
    cases succeeds
    · simp [runDeeds, Outcome.andThen, Transaction.fail, Transaction.begin]
    · simp [runDeeds, Outcome.andThen, Transaction.succeed, Transaction.begin, Deed.run, Deed.after, Deed.perform]

/-- During a transaction its store goes through what others do to it, and the copy through what is staged. -/
theorem runSteps_eq_runDeeds (t : Transaction) : ∀ steps : List Step,
    runSteps t steps =
      (⟨(runDeeds t.store (outsideDeeds t.store steps)).store, staged t.staged steps,
        t.notices ++ (runDeeds t.store (outsideDeeds t.store steps)).notices⟩,
        (runDeeds t.store (outsideDeeds t.store steps)).states)
  | [] => by simp [runSteps, outsideDeeds, staged, runDeeds]
  | .stage f :: rest => by
    rw [runSteps, runSteps_eq_runDeeds (t.stage f) rest, outsideDeeds, staged]
    rfl
  | .outside a :: rest => by
    rw [runSteps_outside, run_eq_runDeeds t.store a, runSteps_eq_runDeeds _ rest, outsideDeeds, staged, runDeeds_append]
    simp [meanwhile, Outcome.andThen]

end

/-- What comes of actions is what comes of their deeds. -/
theorem runActions_eq_runDeeds (s : Store) (actions : List Action) :
    runActions s actions = runDeeds s (deedsOf s actions) := by
  induction actions generalizing s with
  | nil => rfl
  | cons a actions ih => simp only [runActions, deedsOf, runDeeds_append, run_eq_runDeeds, Outcome.andThen, ih]

/-- What comes of a transaction that succeeds: the store then holds what the staged steps make of what it held when the
transaction began, whatever others have written there in the meantime. -/
theorem canvas_run_succeeding (s : Store) (steps : List Step) :
    ((Action.transaction steps true).run s).store.canvas = staged s.canvas steps := by
  rw [Action.run, runSteps_eq_runDeeds]
  rfl

/-- What comes of a transaction that fails is what others have done in the meantime. -/
theorem run_failing (s : Store) (steps : List Step) :
    (Action.transaction steps false).run s = runDeeds s (outsideDeeds s steps) := by
  rw [run_eq_runDeeds, Action.deeds]
  simp

/-! ## Changes and subscribers along a run -/

/-- A deed that is no change makes nothing else of what a store holds. -/
theorem Deed.effect_eq_self {d : Deed} (h : d.isChange = false) (c : Canvas) : d.effect c = c := by
  cases d with
  | change f => cases h
  | subscribe => rfl
  | unsubscribe n => rfl

/-- A store holds after a deed what the deed makes of what it held before. -/
theorem canvas_after (s : Store) (d : Deed) : (d.after s).canvas = d.effect s.canvas := by
  cases d <;> rfl

/-- A store holds after deeds what they make, one after the other, of what it held before. -/
theorem canvas_foldl (s : Store) (deeds : List Deed) :
    (deeds.foldl Deed.after s).canvas = deeds.foldl (fun c d => d.effect c) s.canvas := by
  induction deeds generalizing s with
  | nil => rfl
  | cons d deeds ih => rw [List.foldl_cons, ih, canvas_after, List.foldl_cons]

/-- What is announced of a deed: of a change every subscriber of the moment is told, in order, and of nothing else anybody. -/
def announced (m : Moment Store Deed) : List Notice :=
  if m.event.isChange then m.before.subscribers.map fun n => ⟨n, m.after.canvas.scene, m.after.revision⟩ else []

/-- The states on the way and what is announced are those of the single deeds. -/
theorem runDeeds_eq (s : Store) (deeds : List Deed) :
    runDeeds s deeds = ⟨deeds.foldl Deed.after s, (history Deed.after s deeds).map (·.after),
      (history Deed.after s deeds).flatMap announced⟩ := by
  induction deeds generalizing s with
  | nil => rfl
  | cons d deeds ih =>
    have hnotices : (d.perform s).2 = announced ⟨s, d, d.after s⟩ := by cases d <;> rfl
    simp only [runDeeds, Deed.run, Outcome.andThen, ih, hnotices]
    rfl

/-- A subscriber has come during a run and has not gone since. -/
def IsSubscribed (n : Nat) (moments : List (Moment Store Deed)) : Prop :=
  ∃ earlier m later, moments = earlier ++ m :: later ∧ m.event = .subscribe ∧ m.before.subscribe.1 = n ∧
    ∀ m' ∈ later, m'.event ≠ .unsubscribe n

/-- What a store knows of the run that has led to it. -/
structure Remembers (s : Store) (moments : List (Moment Store Deed)) : Prop where
  revision : s.revision = moments.countP (·.event.isChange)
  /-- Subscribers stand in the order in which they have come, as their numbers grow. -/
  sorted : s.subscribers.Pairwise (· < ·)
  subscribed : ∀ n, n ∈ s.subscribers ↔ IsSubscribed n moments
  /-- No number that has been given out is given out again. -/
  given : ∀ m ∈ moments, m.event = .subscribe → m.before.subscribe.1 < s.nextSubscriber

/-- A deed other than the end of a subscription leaves a subscriber subscribed, and only a subscription adds one. -/
theorem isSubscribed_concat {n : Nat} {moments : List (Moment Store Deed)} {m : Moment Store Deed} :
    IsSubscribed n (moments ++ [m]) ↔
      (m.event = .subscribe ∧ m.before.subscribe.1 = n) ∨ (IsSubscribed n moments ∧ m.event ≠ .unsubscribe n) := by
  constructor
  · rintro ⟨earlier, m', later, heq, hevent, hnumber, hlater⟩
    rcases List.eq_nil_or_concat later with rfl | ⟨later, last, rfl⟩
    · obtain ⟨-, hlast⟩ := List.append_inj' heq rfl
      obtain rfl := List.singleton_inj.1 hlast
      exact Or.inl ⟨hevent, hnumber⟩
    · rw [List.concat_eq_append] at heq hlater
      rw [← List.cons_append, ← List.append_assoc] at heq
      obtain ⟨rfl, hlast⟩ := List.append_inj' heq rfl
      obtain rfl := List.singleton_inj.1 hlast
      rw [List.forall_mem_append, List.forall_mem_singleton] at hlater
      exact Or.inr ⟨⟨earlier, m', later, rfl, hevent, hnumber, hlater.1⟩, hlater.2⟩
  · rintro (⟨hevent, hnumber⟩ | ⟨⟨earlier, m', later, rfl, hevent, hnumber, hlater⟩, hm⟩)
    · exact ⟨moments, m, [], rfl, hevent, hnumber, nofun⟩
    · refine ⟨earlier, m', later ++ [m], by simp, hevent, hnumber, ?_⟩
      rw [List.forall_mem_append, List.forall_mem_singleton]
      exact ⟨hlater, hm⟩

/-- The number of a subscriber has been given out. -/
theorem Remembers.lt_next {s : Store} {moments : List (Moment Store Deed)} (h : s.Remembers moments) {n : Nat}
    (hn : n ∈ s.subscribers) : n < s.nextSubscriber := by
  obtain ⟨earlier, m, later, rfl, hevent, rfl, -⟩ := (h.subscribed n).1 hn
  exact h.given m (List.mem_append_right _ List.mem_cons_self) hevent

/-- What a store knows is kept up by every deed. -/
theorem Remembers.after {s : Store} {moments : List (Moment Store Deed)} (h : s.Remembers moments) (d : Deed) :
    (d.after s).Remembers (moments ++ [⟨s, d, d.after s⟩]) := by
  have hgiven : ∀ m ∈ moments ++ [⟨s, d, d.after s⟩], m.event = .subscribe →
      m.before.subscribe.1 < (d.after s).nextSubscriber := by
    intro m hm hevent
    rcases List.mem_append.1 hm with hm | hm
    · refine Nat.lt_of_lt_of_le (h.given m hm hevent) ?_
      cases d
      case subscribe => exact Nat.le_succ _
      all_goals exact Nat.le_refl _
    · obtain rfl := List.mem_singleton.1 hm
      subst hevent
      exact Nat.lt_succ_self _
  cases d with
  | change f =>
    refine ⟨?_, h.sorted, fun n => ?_, hgiven⟩
    · rw [List.countP_append, ← h.revision]
      rfl
    · rw [isSubscribed_concat, ← h.subscribed]
      simp [Deed.after, Deed.perform, change]
  | subscribe =>
    refine ⟨?_, ?_, fun n => ?_, hgiven⟩
    · rw [List.countP_append, ← h.revision]
      rfl
    · refine List.pairwise_append.2 ⟨h.sorted, List.pairwise_singleton _ _, fun n hn k hk => ?_⟩
      rw [List.mem_singleton.1 hk]
      exact h.lt_next hn
    · rw [isSubscribed_concat, ← h.subscribed]
      change n ∈ s.subscribers ++ [s.nextSubscriber] ↔ (_ ∧ s.nextSubscriber = n) ∨ _
      simp only [List.mem_append, List.mem_singleton]
      grind
  | unsubscribe k =>
    refine ⟨?_, h.sorted.filter _, fun n => ?_, hgiven⟩
    · rw [List.countP_append, ← h.revision]
      rfl
    · rw [isSubscribed_concat, ← h.subscribed]
      change n ∈ s.subscribers.filter (· != k) ↔ _
      simp only [List.mem_filter, bne_iff_ne]
      grind

/-- A store knows of every run that has led to it from its beginning. -/
theorem remembers_run (scene : Scene) (deeds : List Deed) :
    (deeds.foldl Deed.after (ofScene scene)).Remembers (history Deed.after (ofScene scene) deeds) := by
  induction deeds using List.reverseRecOn with
  | nil => exact ⟨rfl, .nil, fun n => ⟨nofun, fun ⟨earlier, m, later, heq, _⟩ => by simp [history] at heq⟩, nofun⟩
  | append_singleton deeds d ih =>
    rw [history_concat, List.foldl_concat]
    exact ih.after d

/-- Of two subscriptions in a run the earlier one has got the smaller number. -/
theorem subscribe_lt {scene : Scene} {deeds : List Deed} {before between after : List (Moment Store Deed)}
    {m₁ m₂ : Moment Store Deed}
    (h : history Deed.after (ofScene scene) deeds = (before ++ m₁ :: between) ++ m₂ :: after) (hm : m₁.event = .subscribe) :
    m₁.before.subscribe.1 < m₂.before.subscribe.1 := by
  obtain ⟨done, rest, -, hdone, hbefore, -, -⟩ := exists_of_history_eq h
  have hremembers := remembers_run scene done
  rw [← hdone, ← hbefore] at hremembers
  exact hremembers.given m₁ (List.mem_append_right _ List.mem_cons_self) hm

/-- A subscriber comes once only: its number is that of one subscription, because the numbers grow. -/
theorem isSubscribed_split {scene : Scene} {deeds : List Deed} {earlier later rest : List (Moment Store Deed)}
    {m : Moment Store Deed} (h : history Deed.after (ofScene scene) deeds = (earlier ++ m :: later) ++ rest)
    (hm : m.event = .subscribe) :
    IsSubscribed m.before.subscribe.1 (earlier ++ m :: later) ↔
      ∀ m' ∈ later, m'.event ≠ .unsubscribe m.before.subscribe.1 := by
  constructor
  · rintro ⟨before, m', after, heq, hevent, hnumber, hafter⟩
    rcases List.append_eq_append_iff.1 heq with ⟨between, rfl, htail⟩ | ⟨between, rfl, htail⟩
    · cases between with
      | nil =>
        obtain ⟨rfl, rfl⟩ := List.cons.inj htail
        exact hafter
      | cons first between =>
        obtain ⟨rfl, rfl⟩ := List.cons.inj htail
        have hsplit : history Deed.after (ofScene scene) deeds = (earlier ++ m :: between) ++ m' :: (after ++ rest) :=
          h.trans (by simp)
        exact absurd hnumber (Nat.ne_of_gt (subscribe_lt hsplit hm))
    · cases between with
      | nil =>
        obtain ⟨rfl, rfl⟩ := List.cons.inj htail
        exact hafter
      | cons first between =>
        obtain ⟨rfl, rfl⟩ := List.cons.inj htail
        have hsplit : history Deed.after (ofScene scene) deeds = (before ++ m' :: between) ++ m :: (later ++ rest) :=
          h.trans (by simp)
        exact absurd hnumber (Nat.ne_of_lt (subscribe_lt hsplit hevent))
  · intro hlater
    exact ⟨earlier, m, later, rfl, hm, rfl, hlater⟩

/-- Transactions are single changes. Whatever is done to a store, in transactions that may be nested or not, what comes of it is
what comes of the deeds that it comes to: what others do during a transaction and, if it succeeds, one change to what was staged,
made from what the store held when it began. Along these deeds every change makes of what the store holds what it is to make of
it, and nothing else touches that; the revision counts the changes, and every change is announced to those who have subscribed
and not unsubscribed before, once each, in the order in which they have come. A subscriber gets a number greater than all that
have been given out, and the end of its subscription is found the first time and never again. -/
theorem transactions_flatten (scene : Scene) (actions : List Action) :
    let s := ofScene scene
    let deeds := deedsOf s actions
    let moments := history Deed.after s deeds
    runActions s actions = ⟨deeds.foldl Deed.after s, moments.map (·.after), moments.flatMap announced⟩ ∧
    (∀ t steps, ((Action.transaction steps true).run t).store.canvas = staged t.canvas steps ∧
      (Action.transaction steps false).run t = runDeeds t (outsideDeeds t steps)) ∧
    (runActions s actions).store.canvas = deeds.foldl (fun c d => d.effect c) s.canvas ∧
    (runActions s actions).store.revision = deeds.countP (·.isChange) ∧
    ∀ earlier m later, moments = earlier ++ m :: later →
      (∀ f, m.event = .change f → m.after.canvas = f m.before.canvas) ∧
      (m.event.isChange = false → m.after.canvas = m.before.canvas) ∧
      m.after.revision = (earlier ++ [m]).countP (·.event.isChange) ∧
      (m.before.subscribers.Pairwise (· < ·) ∧ ∀ n, n ∈ m.before.subscribers ↔ IsSubscribed n earlier) ∧
      (m.event = .subscribe → ∀ m' ∈ earlier, m'.event = .subscribe → m'.before.subscribe.1 < m.before.subscribe.1) ∧
      ∀ before m' between, earlier = before ++ m' :: between → m'.event = .subscribe →
        ((m.before.unsubscribe m'.before.subscribe.1).1 = true ↔
          ∀ m'' ∈ between, m''.event ≠ .unsubscribe m'.before.subscribe.1) := by
  intro s deeds moments
  have hrun : runActions s actions = ⟨deeds.foldl Deed.after s, moments.map (·.after), moments.flatMap announced⟩ := by
    rw [runActions_eq_runDeeds, runDeeds_eq]
  refine ⟨hrun, fun t steps => ⟨canvas_run_succeeding t steps, run_failing t steps⟩, ?_, ?_, ?_⟩
  · rw [hrun]
    exact canvas_foldl s deeds
  · rw [hrun, (remembers_run scene deeds).revision]
    conv_rhs => rw [← map_event_history Deed.after s deeds, List.countP_map]
    rfl
  · intro earlier m later hsplit
    obtain ⟨done, rest, -, hdone, hbefore, hafter, -⟩ := exists_of_history_eq hsplit
    have hremembers : m.before.Remembers earlier := by
      rw [hdone, hbefore]
      exact remembers_run scene done
    have hcanvas : m.after.canvas = m.event.effect m.before.canvas := by
      rw [hafter]
      exact canvas_after m.before m.event
    refine ⟨fun f hm => ?_, fun hm => ?_, ?_, ⟨hremembers.sorted, hremembers.subscribed⟩, fun hm => ?_, ?_⟩
    · rw [hcanvas, hm]
      rfl
    · rw [hcanvas]
      exact Deed.effect_eq_self hm m.before.canvas
    · rw [hafter]
      exact (hremembers.after m.event).revision.trans (by simp [List.countP_append])
    · intro m' hm' hevent
      exact hremembers.given m' hm' hevent
    · rintro before m' between rfl hevent
      rw [← isSubscribed_split hsplit hevent, ← hremembers.subscribed]
      exact List.contains_iff_mem

/-- A transaction that succeeds, with one inside it that fails, a change, and one that succeeds, and then a transaction that
fails while somebody else makes a change. -/
def nestedActions : List Action :=
  [.deed .subscribe,
    .transaction [.stage (Canvas.commit [] "a"),
      .outside (.transaction [.stage (Canvas.commit [] "lost")] false),
      .outside (.deed (.change (Canvas.commit [] "between"))),
      .outside (.transaction [.stage (Canvas.commit [] "inner")] true),
      .stage fun c => { c with diagramText? := c.diagramText?.map (· ++ " & b") }] true,
    .transaction [.outside (.deed (.change (Canvas.commit [] "kept"))), .stage (Canvas.commit [] "dropped")] false]

/-- Of the nested transactions those that succeed are one change each, and those that fail leave nothing. -/
theorem transactions_flatten_nested :
    let o := runActions (ofScene {}) nestedActions
    o.states.map (·.canvas.diagramText?) = [none, some "between", some "inner", some "a & b", some "kept"] ∧
      o.notices.map (fun n => (n.subscriber, n.revision)) = [(0, 1), (0, 2), (0, 3), (0, 4)] ∧
      o.store.canvas.diagramText? = some "kept" ∧ o.store.revision = 4 := by
  obtain ⟨hrun, -, hcanvas, hrevision, -⟩ := transactions_flatten {} nestedActions
  intro o
  refine ⟨?_, ?_, ?_, ?_⟩
  · change (runActions _ _).states.map _ = _
    rw [hrun]
    decide +kernel
  · change (runActions _ _).notices.map _ = _
    rw [hrun]
    decide +kernel
  · change (runActions _ _).store.canvas.diagramText? = _
    rw [hcanvas]
    decide +kernel
  · change (runActions _ _).store.revision = _
    rw [hrevision]
    decide +kernel

end Whiteboard.Store
