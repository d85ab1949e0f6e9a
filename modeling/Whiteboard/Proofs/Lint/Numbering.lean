import Whiteboard.Lint.Check
import Whiteboard.Proofs.Diagram.Numbering

/-!
# Linting the same lines under other numbers

If every line gets another number, each check of a body finds the same violations under the other numbers. The search for
keywords goes through the lines of the whole text; for it, what is found on one line is stated
(`Lint.keywordViolations_renumbered`).
-/

namespace Whiteboard.Lint

open Text

variable (f : Nat → Nat)

/-- The violation on another line. -/
def Violation.renumbered (v : Violation) : Violation :=
  { v with location? := v.location?.map fun l => { l with line := f l.line } }

/-- Under other numbers the same is wrong with the header. -/
theorem headerViolations_renumbered (suggested : Direction) (body : Body) :
    headerViolations suggested (body.renumbered f) = (headerViolations suggested body).map (·.renumbered f) := by
  unfold headerViolations
  have hfind : (body.renumbered f).lines.find? (!·.isBlank) = (body.lines.find? (!·.isBlank)).map (·.renumbered f) :=
    List.find?_map ..
  rw [hfind]
  cases body.lines.find? (!·.isBlank) with
  | none => rfl
  | some line =>
    simp only [Option.map_some, NumberedLine.text_renumbered, NumberedLine.number_renumbered]
    cases Line.classify line.text with
    | header keyword direction? =>
      cases direction? with
      | none => simp only; split <;> rfl
      | some token => simp only; split <;> (try split) <;> rfl
    | _ => rfl

/-- Under another number the same keyword is found in a line. -/
theorem keywordViolations_renumbered (line : NumberedLine) (keyword : String) :
    keywordViolations (line.renumbered f) keyword = (keywordViolations line keyword).map (·.renumbered f) := by
  unfold keywordViolations
  rw [NumberedLine.text_renumbered]
  cases Keyword.find? keyword.toList line.text with
  | none => rfl
  | some passed =>
    simp only [List.map_cons]
    split <;> rfl

/-- Under another number the same is wrong with a statement. -/
theorem statementViolations_renumbered (line indent : Nat) (text : List Char) :
    statementViolations (f line) indent text = (statementViolations line indent text).map (·.renumbered f) := by
  unfold statementViolations
  cases Statement.parse text with
  | error e => rfl
  | ok statement =>
    simp only [List.map_append, List.map_flatMap, List.map_map]
    congr 1
    split <;> simp [atColumn, Violation.renumbered]

/-- Under other numbers the same is wrong with the statements. -/
theorem statementsViolations_renumbered (body : Body) :
    statementsViolations (body.renumbered f) = (statementsViolations body).map (·.renumbered f) := by
  unfold statementsViolations
  rw [Body.renumbered, List.flatMap_map, List.map_flatMap]
  congr 1
  funext line
  rw [NumberedLine.text_renumbered, NumberedLine.number_renumbered]
  cases Line.classify line.text with
  | statement text => exact statementViolations_renumbered f _ _ _
  | _ => rfl

/-- The linting goes through the groups line by line, and so does renumbering, with the lines of the open groups too. -/
theorem groupViolations_renumbered (opened : List Nat) (lines : List NumberedLine) :
    groupViolations (opened.map f) (lines.map (·.renumbered f)) = (groupViolations opened lines).map (·.renumbered f) := by
  induction lines generalizing opened with
  | nil =>
    simp only [groupViolations, List.map_nil, List.map_reverse, List.map_map]
    rfl
  | cons line lines ih =>
    simp only [List.map_cons, groupViolations, NumberedLine.text_renumbered, NumberedLine.number_renumbered]
    cases Line.classify line.text with
    | groupOpen title =>
      simp only [← List.map_cons (f := f), ih, List.map_append]
      split <;> rfl
    | groupClose =>
      simp only [← List.map_tail, ih, List.map_append, List.isEmpty_map]
      split <;> rfl
    | direction token =>
      simp only [ih, List.map_append]
      split <;> rfl
    | _ => exact ih opened

/-- Under other numbers the same limits are passed. -/
theorem sizeViolations_renumbered (limits : Limits) (doc : Document) :
    sizeViolations limits (doc.renumbered f) = (sizeViolations limits doc).map (·.renumbered f) := by
  unfold sizeViolations
  simp only [Document.renumbered, List.length_map, List.map_append]
  congr 1 <;> split <;> rfl

/-- Under other numbers the same text is extra. -/
theorem extraTextViolations_renumbered (body : Body) :
    extraTextViolations (body.renumbered f) = (extraTextViolations body).map (·.renumbered f) := by
  unfold extraTextViolations Body.renumbered
  simp only [List.map_append, List.map_map, List.length_map]
  cases body.outside <;> rfl

end Whiteboard.Lint
