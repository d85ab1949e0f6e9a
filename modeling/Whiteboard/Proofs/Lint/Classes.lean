import Whiteboard.Lint.Report

/-!
# The classes of faults

Each check of the linting finds faults of a few classes only. Two classes are warnings (`Lint.severity_eq_warning_iff`), so all
that a check without these finds is an error (`Lint.isError_of_code`); and no check but the search for keywords finds a
forbidden one.
-/

namespace Whiteboard.Lint

open Text

/-- Labels that are clumsy and diagrams that are too large are the only things that are not errors. -/
theorem severity_eq_warning_iff (fault : Fault) :
    fault.severity = .warning ↔ fault.code = .badLabel ∨ fault.code = .sizeCap := by
  cases fault <;> simp [Fault.severity, Fault.code]

/-- What is of other classes is an error. -/
theorem isError_of_code {codes : List Code} {v : Violation} (h : v.fault.code ∈ codes)
    (hcodes : Code.badLabel ∉ codes ∧ Code.sizeCap ∉ codes) : v.isError = true := by
  have hwarning : v.fault.severity ≠ .warning := by
    rw [Ne, severity_eq_warning_iff]
    rintro (hcode | hcode)
    · exact hcodes.1 (hcode ▸ h)
    · exact hcodes.2 (hcode ▸ h)
  rw [Violation.isError]
  cases hseverity : v.fault.severity with
  | error => rfl
  | warning => exact absurd hseverity hwarning

/-! ## What the checks find -/

variable {v : Violation}

/-- What is wrong with a header concerns the header. -/
theorem code_of_mem_headerViolations {suggested : Direction} {body : Body} (h : v ∈ headerViolations suggested body) :
    v.fault.code ∈ [Code.missingHeader, .nonFlowchart, .badDirection] := by
  unfold headerViolations at h
  repeat' split at h
  all_goals first | exact absurd h List.not_mem_nil | (rw [List.mem_singleton.1 h]; exact List.elem_iff.1 rfl)

/-- A forbidden keyword is reported as one, or as that of an entity or Gantt diagram. -/
theorem code_of_mem_forbiddenViolations {forbidden : List String} {text : List Char}
    (h : v ∈ forbiddenViolations forbidden text) : v.fault.code = .forbiddenFeature ∨ v.fault.code = .erOrGantt := by
  obtain ⟨line, -, h⟩ := List.mem_flatMap.1 h
  obtain ⟨keyword, -, h⟩ := List.mem_flatMap.1 h
  unfold keywordViolations at h
  split at h
  · cases h
  · rcases List.mem_cons.1 h with rfl | h
    · exact Or.inl rfl
    · split at h
      · rw [List.mem_singleton.1 h]
        exact Or.inr rfl
      · cases h

/-- A statement that cannot be read has a bad shape, a bad link or text too many. -/
theorem code_faultOfStatement (text : List Char) (fault : StatementFault) :
    (faultOfStatement text fault).code ∈ [Code.badShape, .inlineLinkSyntax, .extraText] := by
  unfold faultOfStatement
  repeat' split
  all_goals exact List.elem_iff.1 rfl

/-- What is wrong with a label is a bare pipe, or that it is badly written. -/
theorem code_of_mem_labelFaults {ref : NodeRef} {fault : Fault} (h : fault ∈ labelFaults ref) :
    fault.code ∈ [Code.unescapedPipe, .badLabel] := by
  unfold labelFaults at h
  split at h
  · cases h
  · simp only [List.mem_append] at h
    rcases h with (h | h) | h
    all_goals
      split at h
      · rw [List.mem_singleton.1 h]
        exact List.elem_iff.1 rfl
      · cases h

/-- What is wrong with statements is that they cannot be read, or a label in them. -/
theorem code_of_mem_statementsViolations {body : Body} (h : v ∈ statementsViolations body) :
    v.fault.code ∈ [Code.badShape, .inlineLinkSyntax, .extraText] ++ [.unescapedPipe, .badLabel] := by
  obtain ⟨line, -, h⟩ := List.mem_flatMap.1 h
  split at h
  · unfold statementViolations at h
    split at h
    · rw [List.mem_singleton.1 h]
      exact List.mem_append_left _ (code_faultOfStatement _ _)
    · rcases List.mem_append.1 h with h | h
      · obtain ⟨ref, -, h⟩ := List.mem_flatMap.1 h
        obtain ⟨fault, hfault, rfl⟩ := List.mem_map.1 h
        exact List.mem_append_right _ (code_of_mem_labelFaults hfault)
      · split at h
        · cases h
        · obtain ⟨column, -, rfl⟩ := List.mem_map.1 h
          exact List.elem_iff.1 rfl
  · cases h

/-- A line that opens a group, closes one or gives one a direction may be at fault itself; the others are passed over. -/
theorem code_of_mem_groupViolations {lines : List NumberedLine} {opened : List Nat} (h : v ∈ groupViolations opened lines) :
    v.fault.code ∈ [Code.subgraphBlock, .badDirection] := by
  induction lines generalizing opened with
  | nil =>
    obtain ⟨line, -, rfl⟩ := List.mem_map.1 h
    exact List.elem_iff.1 rfl
  | cons line rest ih =>
    rw [groupViolations] at h
    split at h
    iterate 3
      rcases List.mem_append.1 h with h | h
      · split at h
        · rw [List.mem_singleton.1 h]
          exact List.elem_iff.1 rfl
        · cases h
      · exact ih h
    exact ih h

/-- What is wrong with the size is that a limit is passed. -/
theorem code_of_mem_sizeViolations {limits : Limits} {doc : Document} (h : v ∈ sizeViolations limits doc) :
    v.fault.code ∈ [Code.sizeCap] := by
  rcases List.mem_append.1 h with h | h
  all_goals
    split at h
    · rw [List.mem_singleton.1 h]
      exact List.elem_iff.1 rfl
    · cases h

/-- What stands outside the fences is extra text. -/
theorem code_of_mem_extraTextViolations {body : Body} (h : v ∈ extraTextViolations body) :
    v.fault.code ∈ [Code.extraText] := by
  rcases List.mem_append.1 h with h | h
  · obtain ⟨line, -, rfl⟩ := List.mem_map.1 h
    exact List.elem_iff.1 rfl
  · split at h
    · cases h
    · rw [List.mem_singleton.1 h]
      exact List.elem_iff.1 rfl

end Whiteboard.Lint
