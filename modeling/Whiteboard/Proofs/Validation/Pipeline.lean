import Whiteboard.Validation.Revision

/-!
# What a pipeline accepts

A proposal is accepted if a description keeps to the schema and its text passes every stage. Otherwise there is a first
stage that it fails, and the feedback of that stage; a description that breaks the schema fails the linting. The main
statements say that the verdict of a pipeline is the one or the other (`Pipeline.judge_eq_ok_iff`,
`Pipeline.judge_eq_error_iff`).
-/

namespace Whiteboard

namespace Pipeline

/-- A stage lets a text pass. -/
def Passes (p : Pipeline) (stage : Stage) (text : String) : Prop := ∃ warnings, p.evaluate stage text = .passed warnings

/-- A text has no schema to keep to; a description breaks no rule of it, given the nodes on the canvas. -/
def KeepsSchema (p : Pipeline) : Proposal → Prop
  | .text _ => True
  | .spec s => s.violations p.liveNodeIds = []

/-- A proposal keeps to the schema, and every stage lets its text pass. -/
structure Accepts (p : Pipeline) (proposal : Proposal) : Prop where
  schema : p.KeepsSchema proposal
  linting : p.Passes .linting proposal.candidate
  validatingIds : p.Passes .validatingIds proposal.candidate
  validatingSyntax : p.Passes .validatingSyntax proposal.candidate

/-- The first stage that a proposal fails, and the feedback on it. -/
inductive FailsFirst (p : Pipeline) : Proposal → Stage → String → Prop where
  | schema {s : Spec} (hschema : s.violations p.liveNodeIds ≠ []) :
    FailsFirst p (.spec s) .linting (schemaFeedback (s.violations p.liveNodeIds))
  | linting {proposal : Proposal} {feedback : String} (hschema : p.KeepsSchema proposal)
    (hlinting : p.evaluate .linting proposal.candidate = .rejected feedback) :
    FailsFirst p proposal .linting feedback
  | validatingIds {proposal : Proposal} {feedback : String} (hschema : p.KeepsSchema proposal)
    (hlinting : p.Passes .linting proposal.candidate)
    (hids : p.evaluate .validatingIds proposal.candidate = .rejected feedback) :
    FailsFirst p proposal .validatingIds feedback
  | validatingSyntax {proposal : Proposal} {feedback : String} (hschema : p.KeepsSchema proposal)
    (hlinting : p.Passes .linting proposal.candidate) (hids : p.Passes .validatingIds proposal.candidate)
    (hgrammar : p.evaluate .validatingSyntax proposal.candidate = .rejected feedback) :
    FailsFirst p proposal .validatingSyntax feedback

variable {p : Pipeline} {text : String} {proposal : Proposal} {warnings : List Lint.Violation} {stage : Stage}
  {feedback : String}

/-! ## The stages one by one -/

/-- What passes the linter. -/
theorem passes_linting_iff : p.Passes .linting text ↔ (Lint.report p.lint text).isOk = true := by
  simp only [Passes, evaluate]
  split <;> simp_all

/-- What passes the check of ids. -/
theorem passes_validatingIds_iff : p.Passes .validatingIds text ↔ (Ids.check p.ids text).isOk = true := by
  simp only [Passes, evaluate]
  split <;> simp_all

/-- What passes the check of the grammar. -/
theorem passes_validatingSyntax_iff : p.Passes .validatingSyntax text ↔ p.syntaxFault? text = none := by
  simp only [Passes, evaluate]
  split <;> simp_all

/-- The warnings of the linting are those of the lint report; no other stage warns. -/
theorem warnings_of_evaluate (h : p.evaluate stage text = .passed warnings) :
    warnings = if stage = .linting then (Lint.report p.lint text).warnings else [] := by
  cases stage <;> simp only [evaluate] at h
  case linting => split at h <;> cases h; rfl
  case validatingIds => split at h <;> cases h; rfl
  case validatingSyntax => split at h <;> cases h; rfl
  case accepted => cases h; rfl
  case failed => cases h; rfl

/-! ## All stages in turn -/

/-- A text is valid if every stage lets it pass, and its warnings are those of the linting. -/
theorem validate_eq_ok_iff : p.validate text = .ok warnings ↔
    (p.Passes .linting text ∧ p.Passes .validatingIds text ∧ p.Passes .validatingSyntax text) ∧
      warnings = (Lint.report p.lint text).warnings := by
  unfold validate Passes
  cases hlinting : p.evaluate .linting text with
  | rejected feedback => simp [walk, hlinting]
  | passed w1 =>
    cases hids : p.evaluate .validatingIds text with
    | rejected feedback => simp [walk, hlinting, hids, Except.map]
    | passed w2 =>
      cases hgrammar : p.evaluate .validatingSyntax text with
      | rejected feedback => simp [walk, hlinting, hids, hgrammar, Except.map]
      | passed w3 =>
        have h1 : w1 = (Lint.report p.lint text).warnings := warnings_of_evaluate hlinting
        have h2 : w2 = [] := warnings_of_evaluate hids
        have h3 : w3 = [] := warnings_of_evaluate hgrammar
        simp [walk, hlinting, hids, hgrammar, Except.map, h1, h2, h3, eq_comm]

/-- A text that nothing is said against is accepted without a warning. -/
theorem validate_eq_ok_nil (hlint : Lint.violations p.lint text = [])
    (hids : (Ids.check p.ids text).isOk = true) (hgrammar : p.syntaxFault? text = none) : p.validate text = .ok [] := by
  have hok : (Lint.report p.lint text).isOk = true := by rw [Lint.report, Lint.Report.isOk, hlint]; rfl
  refine validate_eq_ok_iff.2 ⟨⟨passes_linting_iff.2 hok, passes_validatingIds_iff.2 hids,
    passes_validatingSyntax_iff.2 hgrammar⟩, ?_⟩
  rw [Lint.report, Lint.Report.warnings, hlint]
  rfl

/-- A text is rejected at the first stage that does not let it pass. -/
theorem validate_eq_error_iff : p.validate text = .error ⟨stage, feedback⟩ ↔ p.FailsFirst (.text text) stage feedback := by
  have hiff : p.FailsFirst (.text text) stage feedback ↔
      (stage = .linting ∧ p.evaluate .linting text = .rejected feedback) ∨
      (stage = .validatingIds ∧ p.Passes .linting text ∧ p.evaluate .validatingIds text = .rejected feedback) ∨
      (stage = .validatingSyntax ∧ p.Passes .linting text ∧ p.Passes .validatingIds text ∧
        p.evaluate .validatingSyntax text = .rejected feedback) := by
    constructor
    · intro h
      cases h with
      | linting _ h1 => exact Or.inl ⟨rfl, h1⟩
      | validatingIds _ h1 h2 => exact Or.inr (Or.inl ⟨rfl, h1, h2⟩)
      | validatingSyntax _ h1 h2 h3 => exact Or.inr (Or.inr ⟨rfl, h1, h2, h3⟩)
    · rintro (⟨rfl, h1⟩ | ⟨rfl, h1, h2⟩ | ⟨rfl, h1, h2, h3⟩)
      · exact .linting trivial h1
      · exact .validatingIds trivial h1 h2
      · exact .validatingSyntax trivial h1 h2 h3
  rw [hiff]
  unfold validate Passes
  cases hlinting : p.evaluate .linting text with
  | rejected f => simp [walk, hlinting, eq_comm]
  | passed w1 =>
    cases hids : p.evaluate .validatingIds text with
    | rejected f => simp [walk, hlinting, hids, Except.map, eq_comm]
    | passed w2 =>
      cases hgrammar : p.evaluate .validatingSyntax text with
      | rejected f => simp [walk, hlinting, hids, hgrammar, Except.map, eq_comm]
      | passed w3 => simp [walk, hlinting, hids, hgrammar, Except.map]

/-! ## The verdict on a proposal -/

/-- What keeps to the schema is judged by its text. -/
theorem judge_of_keepsSchema (h : p.KeepsSchema proposal) : p.judge proposal = p.validate proposal.candidate := by
  cases proposal with
  | text t => rfl
  | spec s => simp only [judge, show s.violations p.liveNodeIds = [] from h]; rfl

/-- A description that breaks the schema is turned down whatever its text. -/
theorem judge_of_violations {s : Spec} (h : s.violations p.liveNodeIds ≠ []) :
    p.judge (.spec s) = .error ⟨.linting, schemaFeedback (s.violations p.liveNodeIds)⟩ := by
  unfold judge
  split
  · rename_i heq; cases heq
  · rename_i heq
    cases heq
    split
    · rename_i hnil; exact absurd hnil h
    · rfl

/-- A proposal keeps the schema, or it is a spec that breaks it. -/
theorem keepsSchema_or (p : Pipeline) (proposal : Proposal) :
    p.KeepsSchema proposal ∨ ∃ s, proposal = .spec s ∧ s.violations p.liveNodeIds ≠ [] := by
  cases proposal with
  | text t => exact Or.inl trivial
  | spec s => exact (Classical.em (s.violations p.liveNodeIds = [])).imp id fun h => ⟨s, rfl, h⟩

/-- Only the text matters to the stages after the schema. -/
theorem failsFirst_text_iff (h : p.KeepsSchema proposal) :
    p.FailsFirst (.text proposal.candidate) stage feedback ↔ p.FailsFirst proposal stage feedback := by
  constructor
  · intro hfails
    cases hfails with
    | linting _ h1 => exact .linting h h1
    | validatingIds _ h1 h2 => exact .validatingIds h h1 h2
    | validatingSyntax _ h1 h2 h3 => exact .validatingSyntax h h1 h2 h3
  · intro hfails
    cases hfails with
    | schema hschema => exact absurd h hschema
    | linting _ h1 => exact .linting trivial h1
    | validatingIds _ h1 h2 => exact .validatingIds trivial h1 h2
    | validatingSyntax _ h1 h2 h3 => exact .validatingSyntax trivial h1 h2 h3

/-- What the pipeline accepts, and with which warnings. -/
theorem judge_eq_ok_iff : p.judge proposal = .ok warnings ↔
    p.Accepts proposal ∧ warnings = (Lint.report p.lint proposal.candidate).warnings := by
  rcases keepsSchema_or p proposal with hschema | ⟨s, rfl, hschema⟩
  · rw [judge_of_keepsSchema hschema, validate_eq_ok_iff]
    exact ⟨fun ⟨⟨h1, h2, h3⟩, hw⟩ => ⟨⟨hschema, h1, h2, h3⟩, hw⟩, fun ⟨h, hw⟩ =>
      ⟨⟨h.linting, h.validatingIds, h.validatingSyntax⟩, hw⟩⟩
  · rw [judge_of_violations hschema]
    exact ⟨nofun, fun ⟨h, _⟩ => absurd h.schema hschema⟩

/-- What the pipeline rejects, at which stage and with which feedback. -/
theorem judge_eq_error_iff : p.judge proposal = .error ⟨stage, feedback⟩ ↔ p.FailsFirst proposal stage feedback := by
  rcases keepsSchema_or p proposal with hschema | ⟨s, rfl, hschema⟩
  · rw [judge_of_keepsSchema hschema, validate_eq_error_iff, failsFirst_text_iff hschema]
  · rw [judge_of_violations hschema]
    constructor
    · intro h
      cases h
      exact .schema hschema
    · intro h
      cases h with
      | schema _ => rfl
      | linting h0 _ => exact absurd h0 hschema
      | validatingIds h0 _ _ => exact absurd h0 hschema
      | validatingSyntax h0 _ _ _ => exact absurd h0 hschema

/-- A proposal fails first at a stage. -/
def FailsAt (p : Pipeline) (stage : Stage) (proposal : Proposal) : Prop := ∃ feedback, p.FailsFirst proposal stage feedback

/-- A proposal fails at a stage exactly if it is rejected there. -/
theorem failsAt_iff : p.FailsAt stage proposal ↔ ∃ rejection, p.judge proposal = .error rejection ∧ rejection.stage = stage := by
  constructor
  · rintro ⟨feedback, h⟩
    exact ⟨⟨stage, feedback⟩, judge_eq_error_iff.2 h, rfl⟩
  · rintro ⟨⟨_, feedback⟩, h, rfl⟩
    exact ⟨feedback, judge_eq_error_iff.1 h⟩

instance : Decidable (p.FailsAt stage proposal) :=
  match h : p.judge proposal with
  | .ok _ => .isFalse (by simp [failsAt_iff, h])
  | .error rejection => decidable_of_iff (rejection.stage = stage) (by simp [failsAt_iff, h])

/-- A proposal fails first at one stage only. -/
theorem FailsFirst.failsAt_iff (h : p.FailsFirst proposal stage feedback) (other : Stage) :
    p.FailsAt other proposal ↔ other = stage := by
  rw [Pipeline.failsAt_iff, judge_eq_error_iff.2 h]
  simp [eq_comm]

/-- What is accepted fails nowhere. -/
theorem Accepts.not_failsAt (h : p.Accepts proposal) (stage : Stage) : ¬ p.FailsAt stage proposal := by
  rw [Pipeline.failsAt_iff, judge_eq_ok_iff.2 ⟨h, rfl⟩]
  simp

/-- There is a way on from every stage that can fail. -/
theorem FailsFirst.isTerminal (h : p.FailsFirst proposal stage feedback) : stage.isTerminal = false := by
  cases h <;> rfl

end Pipeline

end Whiteboard
