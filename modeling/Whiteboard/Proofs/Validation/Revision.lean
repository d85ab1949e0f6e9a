import Mathlib.Data.List.Chain
import Whiteboard.Proofs.Validation.Pipeline

/-!
# Asking ends, and ends well

Main statement: a run makes at most `3 * (m - 1) + 1` calls if each stage has `m` attempts; each call but the first asks
for a revision of the candidate before, with the feedback of the first stage that it failed; and the result is the one
that the answers call for (`Revision.run_isSound`).

The calls of a run are seen by a generator that keeps a record of them. It answers as the generator would without, so the
record is that of the run itself. While a run goes on, its budget holds the number of candidates that failed at each
stage, and every number is less than `m` (`Revision.IsAt`); this carries from one call to the next.
-/

namespace Whiteboard

/-- A call and what came of it. -/
structure Exchange where
  call : Call
  answer : Answer

/-- A generator that keeps a record of its calls. -/
def Generator.recorded (generator : Generator σ) : Generator (σ × List Exchange) := fun (state, log) call =>
  let (reply, state) := generator state call
  (reply, state, log ++ [⟨call, reply.answer⟩])

namespace AttemptBudget

/-- An attempt is spent at its stage only. -/
theorem used_spend (b : AttemptBudget) {stage : Stage} (h : stage.isTerminal = false) (other : Stage) :
    (b.spend stage).used other = b.used other + if other = stage then 1 else 0 := by
  cases stage <;> cases other <;> first | rfl | cases h

@[simp] theorem maxPerStage_spend (b : AttemptBudget) (stage : Stage) : (b.spend stage).maxPerStage = b.maxPerStage := by
  cases stage <;> rfl

/-- A revision is allowed as long as the stage has not used up its attempts. -/
theorem recordFailure_eq (b : AttemptBudget) {stage : Stage} (h : stage.isTerminal = false) :
    b.recordFailure stage = (decide (b.used stage + 1 < b.maxPerStage), b.spend stage) := by
  rw [recordFailure, b.used_spend h stage, h, if_pos rfl]
  rfl

end AttemptBudget

namespace Exchange

/-- The answer is a proposal that fails first at the stage. -/
def failsAt (p : Pipeline) (stage : Stage) (x : Exchange) : Bool :=
  match x.answer with
  | .ok proposal => p.FailsAt stage proposal
  | .error _ => false

/-- The number of candidates that failed first at a stage. -/
def failures (p : Pipeline) (stage : Stage) (log : List Exchange) : Nat := log.countP (·.failsAt p stage)

/-- The second call asks for a revision of the proposal that the first one got, with the feedback of the first stage that
the proposal failed. -/
def IsRevised (p : Pipeline) (request : Request) (x y : Exchange) : Prop :=
  ∃ proposal stage feedback, x.answer = .ok proposal ∧ p.FailsFirst proposal stage feedback ∧
    y.call = .revise request proposal.candidate feedback

/-- The first call asks for a proposal, and every other one for a revision of the proposal before. -/
structure IsConversation (p : Pipeline) (request : Request) (log : List Exchange) : Prop where
  proposed : log.head?.map (·.call) = some (.propose request)
  revised : log.IsChain (IsRevised p request)

variable {p : Pipeline} {request : Request} {log before : List Exchange} {x : Exchange} {proposal : Proposal}
  {stage : Stage} {feedback : String}

theorem failures_append (p : Pipeline) (stage : Stage) (log : List Exchange) (x : Exchange) :
    failures p stage (log ++ [x]) = failures p stage log + failures p stage [x] := List.countP_append

/-- A candidate that is turned down counts at one stage. -/
theorem failures_concat (hanswer : x.answer = .ok proposal) (h : p.FailsFirst proposal stage feedback)
    (log : List Exchange) (other : Stage) :
    failures p other (log ++ [x]) = failures p other log + if other = stage then 1 else 0 := by
  rw [failures_append]
  by_cases heq : other = stage
  · simp [failures, failsAt, hanswer, h.failsAt_iff, heq]
  · simp [failures, failsAt, hanswer, h.failsAt_iff, heq]

/-- A candidate that is accepted counts nowhere, and neither does a call that failed. -/
theorem failures_concat_eq (h : ∀ proposal, x.answer = .ok proposal → p.Accepts proposal) (log : List Exchange)
    (stage : Stage) : failures p stage (log ++ [x]) = failures p stage log := by
  rw [failures_append, Nat.add_eq_left]
  cases hanswer : x.answer with
  | error e => simp [failures, failsAt, hanswer]
  | ok proposal => simp [failures, failsAt, hanswer, (h proposal hanswer).not_failsAt]

/-- What comes of the last call of a conversation does not matter to it. -/
theorem IsConversation.answer (h : IsConversation p request (before ++ [x])) {y : Exchange} (hcall : y.call = x.call) :
    IsConversation p request (before ++ [y]) := by
  constructor
  · cases before with
    | nil => simpa [hcall] using h.proposed
    | cons first before => exact h.proposed
  · obtain ⟨hbefore, -, hlink⟩ := List.isChain_append.1 h.revised
    refine List.isChain_append.2 ⟨hbefore, List.isChain_singleton _, ?_⟩
    intro last hlast z hz
    cases hz
    obtain ⟨proposal, stage, feedback, hanswer, hfails, hx⟩ := hlink last hlast x rfl
    exact ⟨proposal, stage, feedback, hanswer, hfails, hcall.trans hx⟩

/-- A conversation goes on with a call for a revision of the last proposal. -/
theorem IsConversation.concat (h : IsConversation p request (before ++ [x])) {y : Exchange}
    (hrevised : IsRevised p request x y) : IsConversation p request (before ++ [x] ++ [y]) := by
  constructor
  · have := h.proposed
    cases before <;> exact this
  · refine List.isChain_append.2 ⟨h.revised, List.isChain_singleton _, ?_⟩
    intro last hlast z hz
    cases hz
    rw [List.getLast?_concat] at hlast
    cases hlast
    exact hrevised

/-- Every call but the last of a conversation got a proposal. -/
theorem IsConversation.eq_nil_of_error (h : IsConversation p request log) {after : List Exchange}
    (hlog : log = before ++ x :: after) {e : GenerationError} (hanswer : x.answer = .error e) : after = [] := by
  cases after with
  | nil => rfl
  | cons y after =>
    rw [hlog] at h
    have hxy := (List.isChain_append_cons_cons.1 h.revised).2.1
    obtain ⟨proposal, -, -, hok, -, -⟩ := hxy
    rw [hanswer] at hok
    cases hok

end Exchange

namespace Revision

open Exchange

/-- Where a run stands when a call is due after some exchanges, if every stage has `m` attempts. -/
structure IsAt (run : Revision) (m : Nat) (before : List Exchange) (call : Call) : Prop where
  maxPerStage : run.budget.maxPerStage = m
  used : ∀ stage, run.budget.used stage = failures run.pipeline stage before
  allowed : ∀ stage, failures run.pipeline stage before < m
  attempts : run.attempts = before.length + 1
  total : before.length = failures run.pipeline .linting before + failures run.pipeline .validatingIds before +
    failures run.pipeline .validatingSyntax before
  conversation : ∀ answer, IsConversation run.pipeline run.request (before ++ [⟨call, answer⟩])

/-- What the last answer of a run makes its result: a diagram if the proposal is accepted, else the end of the attempts of
the stage that it fails; and the error if the call failed. -/
def IsResult (p : Pipeline) (calls : Nat) (answer : Answer) : Except RunError Accepted → Prop
  | .ok accepted => ∃ proposal, answer = .ok proposal ∧ p.Accepts proposal ∧ accepted.text = proposal.candidate ∧
      accepted.warnings = (Lint.report p.lint accepted.text).warnings ∧ accepted.attempts = calls
  | .error (.exhausted stage detail) => ∃ proposal, answer = .ok proposal ∧ p.FailsFirst proposal stage detail
  | .error (.generation e) => answer = .error e

/-- What a run with `m` attempts for each stage comes to after its exchanges. -/
structure IsSound (p : Pipeline) (request : Request) (m : Nat) (log : List Exchange) (result : Except RunError Accepted) :
    Prop where
  length_le : log.length ≤ 3 * (m - 1) + 1
  conversation : IsConversation p request log
  ending : ∃ last, log.getLast? = some last ∧ IsResult p log.length last.answer result
  exhausted_iff : ∀ stage, (∃ detail, result = .error (.exhausted stage detail)) ↔
    failures p stage log = m ∧ ∀ other, other ≠ stage → failures p other log < m
  failed : ∀ before x after e, log = before ++ x :: after → x.answer = .error e →
    after = [] ∧ result = .error (.generation e)

variable {run next : Revision} {m : Nat} {before : List Exchange} {call call' : Call} {answer : Answer}
  {result : Except RunError Accepted}

/-- A run begins with no attempt used. -/
theorem isAt_begin (request : Request) (p : Pipeline) (maxAttempts : Nat) :
    (begin request p maxAttempts).2.IsAt (max 1 maxAttempts) [] (begin request p maxAttempts).1 := by
  refine ⟨?_, ?_, ?_, rfl, rfl, fun answer => ⟨rfl, List.isChain_singleton _⟩⟩
  · exact Nat.max_comm _ _
  · intro stage
    cases stage <;> rfl
  · intro stage
    exact Nat.lt_of_lt_of_le Nat.zero_lt_one (Nat.le_max_left _ _)

/-- If a run goes on, one more candidate has been turned down, at a stage that has attempts left. -/
theorem IsAt.ask (h : run.IsAt m before call) (hresume : run.resume answer = .ask call' next) :
    next.pipeline = run.pipeline ∧ next.request = run.request ∧ next.IsAt m (before ++ [⟨call, answer⟩]) call' := by
  unfold resume at hresume
  split at hresume
  · cases hresume
  · rename_i proposal
    split at hresume
    · cases hresume
    · rename_i stage feedback hjudge
      have hfails := Pipeline.judge_eq_error_iff.1 hjudge
      have hcount := failures_concat (x := ⟨call, .ok proposal⟩) rfl hfails before
      rw [run.budget.recordFailure_eq hfails.isTerminal] at hresume
      split at hresume
      · rename_i budget hbudget
        cases hresume
        obtain ⟨hleft, rfl⟩ := Prod.mk.inj hbudget
        have hleft := of_decide_eq_true hleft
        rw [h.maxPerStage, h.used stage] at hleft
        refine ⟨rfl, rfl, ?_, ?_, ?_, ?_, ?_, ?_⟩
        · rw [AttemptBudget.maxPerStage_spend, h.maxPerStage]
        · intro other
          rw [run.budget.used_spend hfails.isTerminal, h.used other, hcount]
        · intro other
          rw [hcount]
          by_cases heq : other = stage
          · rw [if_pos heq, heq]
            exact hleft
          · rw [if_neg heq]
            exact h.allowed other
        · simp [h.attempts]
        · rw [hcount, hcount, hcount, List.length_append, List.length_singleton, h.total]
          cases hfails <;> simp <;> omega
        · intro answer
          exact (h.conversation (.ok proposal)).concat ⟨proposal, stage, feedback, rfl, hfails, rfl⟩
      · cases hresume

/-- Only the last answer can be an error. -/
theorem IsAt.eq_nil_of_error (h : run.IsAt m before call) {earlier after : List Exchange} {x : Exchange} {e : GenerationError}
    (hlog : before ++ [⟨call, answer⟩] = earlier ++ x :: after) (hx : x.answer = .error e) : after = [] ∧ answer = .error e := by
  have hnil := (h.conversation answer).eq_nil_of_error hlog hx
  subst hnil
  obtain ⟨-, hlast⟩ := List.append_inj' hlog rfl
  cases hlast
  exact ⟨rfl, hx⟩

/-- With an answer that is an error or a proposal that is accepted, no stage has used up its attempts. -/
theorem IsAt.failures_lt (h : run.IsAt m before call)
    (hanswer : ∀ proposal, answer = .ok proposal → run.pipeline.Accepts proposal) (stage : Stage) :
    failures run.pipeline stage (before ++ [⟨call, answer⟩]) < m := by
  rw [failures_concat_eq hanswer]
  exact h.allowed stage

/-- If a run ends, it ends as it should. -/
theorem IsAt.done (h : run.IsAt m before call) (hresume : run.resume answer = .done result) :
    IsSound run.pipeline run.request m (before ++ [Exchange.mk call answer]) result := by
  have hlength : (before ++ [Exchange.mk call answer]).length = before.length + 1 := by simp
  have hbound : before.length + 1 ≤ 3 * (m - 1) + 1 := by
    have h1 := h.allowed .linting
    have h2 := h.allowed .validatingIds
    have h3 := h.allowed .validatingSyntax
    have := h.total
    omega
  have hconversation := h.conversation answer
  unfold resume at hresume
  split at hresume
  · rename_i e
    cases hresume
    refine ⟨hlength ▸ hbound, hconversation, ⟨_, List.getLast?_concat, rfl⟩, ?_, ?_⟩
    · intro stage
      have hlt : failures run.pipeline stage (before ++ [⟨call, .error e⟩]) < m :=
        h.failures_lt (by rintro proposal ⟨⟩) stage
      exact ⟨nofun, fun hcount => by omega⟩
    · intro earlier x after e' hlog hx
      obtain ⟨hnil, heq⟩ := h.eq_nil_of_error hlog hx
      cases heq
      exact ⟨hnil, rfl⟩
  · rename_i proposal
    split at hresume
    · rename_i warnings hjudge
      cases hresume
      obtain ⟨haccepts, hwarnings⟩ := Pipeline.judge_eq_ok_iff.1 hjudge
      refine ⟨hlength ▸ hbound, hconversation, ⟨_, List.getLast?_concat, proposal, rfl, haccepts, rfl, hwarnings, ?_⟩,
        ?_, ?_⟩
      · rw [hlength]; exact h.attempts
      · intro stage
        have hlt : failures run.pipeline stage (before ++ [⟨call, .ok proposal⟩]) < m :=
          h.failures_lt (fun _ heq => Except.ok.inj heq ▸ haccepts) stage
        exact ⟨nofun, fun hcount => by omega⟩
      · intro earlier x after e' hlog hx
        cases (h.eq_nil_of_error hlog hx).2
    · rename_i stage feedback hjudge
      have hfails := Pipeline.judge_eq_error_iff.1 hjudge
      rw [run.budget.recordFailure_eq hfails.isTerminal] at hresume
      split at hresume
      · cases hresume
      · rename_i hbudget
        cases hresume
        have hleft := of_decide_eq_false (Prod.mk.inj hbudget).1
        rw [h.maxPerStage, h.used stage] at hleft
        have hcount := failures_concat (x := ⟨call, .ok proposal⟩) rfl hfails before
        refine ⟨hlength ▸ hbound, hconversation, ⟨_, List.getLast?_concat, proposal, rfl, hfails⟩, ?_, ?_⟩
        · intro other
          have hother := h.allowed other
          constructor
          · rintro ⟨detail, heq⟩
            cases heq
            refine ⟨?_, fun third hne => ?_⟩
            · rw [hcount, if_pos rfl]
              omega
            · rw [hcount, if_neg hne]
              exact h.allowed third
          · rintro ⟨heq, -⟩
            rw [hcount] at heq
            split at heq
            · rename_i hsame
              exact ⟨feedback, hsame ▸ rfl⟩
            · omega
        · intro earlier x after e' hlog hx
          cases (h.eq_nil_of_error hlog hx).2

/-- An answer that ends a run gives its result. -/
theorem runFrom_of_done {generator : Generator σ} {state : σ}
    (h : run.resume (generator state call).1.answer = .done result) :
    runFrom generator state call run = (result, (generator state call).2) := by
  rw [runFrom]
  simp only
  split
  · rename_i heq
    cases heq.symm.trans h
    rfl
  · rename_i heq
    cases heq.symm.trans h

/-- An answer after which a run goes on leads to the next call. -/
theorem runFrom_of_ask {generator : Generator σ} {state : σ}
    (h : run.resume (generator state call).1.answer = .ask call' next) :
    runFrom generator state call run = runFrom generator (generator state call).2 call' next := by
  rw [runFrom]
  simp only
  split
  · rename_i heq
    cases heq.symm.trans h
  · rename_i heq
    cases heq.symm.trans h
    rfl

/-- From any call on, the record is sound, and keeping it changes nothing. -/
theorem runFrom_recorded (generator : Generator σ) (state : σ) (call : Call) (run : Revision) {m : Nat}
    {before : List Exchange} (h : run.IsAt m before call) :
    ∃ log, runFrom generator.recorded (state, before) call run =
        ((runFrom generator state call run).1, (runFrom generator state call run).2, log) ∧
      IsSound run.pipeline run.request m log (runFrom generator state call run).1 := by
  induction hbudget : run.budget.remaining using Nat.strong_induction_on generalizing state call run before with
  | _ budget ih =>
    cases hresume : run.resume (generator state call).1.answer with
    | done result =>
      have hrecorded : runFrom generator.recorded (state, before) call run = _ := runFrom_of_done hresume
      rw [runFrom_of_done hresume, hrecorded]
      exact ⟨_, rfl, h.done hresume⟩
    | ask call' next =>
      have hrecorded : runFrom generator.recorded (state, before) call run = _ := runFrom_of_ask hresume
      rw [runFrom_of_ask hresume, hrecorded]
      obtain ⟨hpipeline, hrequest, hnext⟩ := h.ask hresume
      rw [← hpipeline, ← hrequest]
      exact ih _ (hbudget ▸ remaining_resume hresume) _ _ _ hnext rfl

/-- Whatever the generator does, a run comes to an end after at most `3 * (m - 1) + 1` calls, where `m` is the number of
attempts for each stage and at least one. The calls are those of a conversation, the result is the one that the last
answer calls for, a stage is exhausted if it alone has turned down `m` candidates, and a call that fails is the last. -/
theorem run_isSound (generator : Generator σ) (state : σ) (request : Request) (p : Pipeline) (maxAttempts : Nat) :
    ∃ log, Revision.run generator.recorded (state, []) request p maxAttempts =
        ((Revision.run generator state request p maxAttempts).1,
          (Revision.run generator state request p maxAttempts).2, log) ∧
      IsSound p request (max 1 maxAttempts) log (Revision.run generator state request p maxAttempts).1 :=
  runFrom_recorded generator state _ _ (isAt_begin request p maxAttempts)

end Revision

end Whiteboard
