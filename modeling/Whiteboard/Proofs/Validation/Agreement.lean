import Mathlib.Data.List.Basic
import Whiteboard.Diagram.Grammar
import Whiteboard.Proofs.Lint.Classes
import Whiteboard.Proofs.Text

/-!
# The strict grammar and the linting

Main statement: in a text that belongs to the strict grammar the linting finds no errors but keywords and an `&` without the
blanks it should have, and a text in which the linting finds no errors can fall short of the grammar only by a second header, a
directive, a direction outside of every group or an arrow of another style (`checkSyntax_agrees`).

Both go over the same lines, but one stops at the first fault and counts the groups that are open, and the other goes on and
keeps their lines. What they have in common is said once: where the header is (`IsHeaded`), how many groups are open after a
line (`openAfter`) and what is wrong with a line that opens or closes one (`groupFault?`). What one of them makes of these is
then a lemma about it alone.
-/

namespace Whiteboard

open Text

/-! ## Fences -/

/-- No first word makes a line a fence. -/
theorem Line.ofFirstWord_ne_fence (word : String) (rest text : List Char) : ofFirstWord word rest text ≠ .fence := by
  unfold ofFirstWord
  repeat' split
  all_goals nofun

/-- A line that does not begin with the mark of a fence is not read as one. -/
theorem NumberedLine.classify_ne_fence {line : NumberedLine} (h : line.isFence = false) :
    Line.classify line.text ≠ .fence := by
  have hmark : ¬ Line.fenceMark.isPrefixOf (trim line.text) = true := by
    intro hprefix
    have hwhole := (List.isPrefixOf_iff_prefix.1 hprefix).trans (dropEndWhile_prefix_self Text.isBlank (trimStart line.text))
    rw [isFence, List.isPrefixOf_iff_prefix.2 hwhole] at h
    cases h
  unfold Line.classify
  simp only [hmark, if_false, Bool.false_eq_true]
  split
  · nofun
  · split
    · nofun
    · exact Line.ofFirstWord_ne_fence _ _ _

/-- No line of a body is a fence. -/
theorem Body.isFence_of_mem_lines {text : List Char} {line : NumberedLine} (h : line ∈ (ofText text).lines) :
    line.isFence = false := by
  unfold ofText at h
  simp only at h
  split at h
  · rename_i hnone
    rw [List.map_eq_nil_iff, List.filter_eq_nil_iff] at hnone
    exact Bool.eq_false_iff.2 (hnone line h)
  · rename_i first last hfences
    obtain ⟨hline, hbetween⟩ := List.mem_filter.1 h
    rw [Bool.and_eq_true, decide_eq_true_eq, decide_eq_true_eq] at hbetween
    by_contra hfence
    have hnumber : line.number ∈ [first, last] := by
      rw [← hfences]
      exact List.mem_map_of_mem (List.mem_filter.2 ⟨hline, by simpa using hfence⟩)
    simp only [List.mem_cons, List.not_mem_nil, or_false] at hnumber
    omega
  · simpa using (List.mem_filter.1 h).2

/-! ## The header -/

/-- A line is read as blank exactly if it has no other characters than blanks. -/
theorem NumberedLine.classify_eq_blank_iff {line : NumberedLine} :
    Line.classify line.text = .blank ↔ line.isBlank = true := by
  unfold Line.classify isBlank
  constructor
  · intro h
    by_contra hblank
    simp only [hblank, if_false] at h
    split at h
    · cases h
    · split at h
      · cases h
      · unfold Line.ofFirstWord at h
        repeat' split at h
        all_goals cases h
  · intro h
    simp only [h, if_true]

/-- The line is a header of a flowchart with a direction. -/
def NumberedLine.IsGoodHeader (line : NumberedLine) : Prop :=
  ∃ keyword token, Line.classify line.text = .header keyword (some token) ∧ Line.isFlowchartKeyword keyword = true ∧
    (Direction.ofToken? token).isSome = true

/-- A flowchart header with a direction is a good one. -/
theorem NumberedLine.IsGoodHeader.of_classify {line : NumberedLine} {keyword : String} {direction? : Option String}
    (hclass : Line.classify line.text = .header keyword direction?) (hkeyword : Line.isFlowchartKeyword keyword = true)
    (hdirection : (direction?.bind Direction.ofToken?).isSome = true) : line.IsGoodHeader := by
  cases direction? with
  | none => cases hdirection
  | some token => exact ⟨keyword, token, hclass, hkeyword, hdirection⟩

/-- The first of the lines that is not blank is a header, with the given lines before it and after it. -/
structure IsHeaded (lines blanks : List NumberedLine) (header : NumberedLine) (rest : List NumberedLine) : Prop where
  split : lines = blanks ++ header :: rest
  blank : ∀ line ∈ blanks, Line.classify line.text = .blank
  good : header.IsGoodHeader

namespace IsHeaded

variable {lines blanks rest : List NumberedLine} {header : NumberedLine} {last : Nat}

/-- A blank line in front leaves the header the first line that counts. -/
theorem cons {line : NumberedLine} (h : IsHeaded lines blanks header rest) (hblank : Line.classify line.text = .blank) :
    IsHeaded (line :: lines) (line :: blanks) header rest :=
  ⟨congrArg (line :: ·) h.split, List.forall_mem_cons.2 ⟨hblank, h.blank⟩, h.good⟩

/-- The grammar passes over the blank lines and takes the header. -/
theorem run_eq (h : IsHeaded lines blanks header rest) (last : Nat) :
    Progress.beforeHeader.run last lines = (Progress.inBody 0).run header.number rest := by
  obtain ⟨rfl, hblank, keyword, token, hclass, hkeyword, htoken⟩ := h
  induction blanks generalizing last with
  | nil =>
    have hsome : ((some token).bind Direction.ofToken?).isNone = false := by
      simpa [Option.isSome_iff_ne_none] using htoken
    simp only [List.nil_append, Progress.run, Progress.step, hclass, hkeyword, hsome, Bool.not_true, Bool.false_eq_true,
      if_false]
  | cons blank blanks ih =>
    obtain ⟨hfirst, hothers⟩ := List.forall_mem_cons.1 hblank
    simp only [List.cons_append, Progress.run, Progress.step, hfirst]
    exact ih _ hothers

/-- In a text that belongs to the grammar a header comes first. -/
theorem exists_of_run (h : Progress.beforeHeader.run last lines = .ok ()) :
    ∃ blanks header rest, IsHeaded lines blanks header rest := by
  induction lines generalizing last with
  | nil => cases h
  | cons line lines ih =>
    rw [Progress.run] at h
    cases hclass : Line.classify line.text
    all_goals simp only [Progress.step, hclass] at h
    case blank =>
      obtain ⟨blanks, header, rest, hheaded⟩ := ih h
      exact ⟨line :: blanks, header, rest, hheaded.cons hclass⟩
    case header keyword direction? =>
      by_cases hkeyword : Line.isFlowchartKeyword keyword = true
      · by_cases hdirection : (direction?.bind Direction.ofToken?).isSome = true
        · exact ⟨[], line, lines, rfl, nofun, .of_classify hclass hkeyword hdirection⟩
        · simp [hkeyword, Option.not_isSome_iff_eq_none.1 hdirection] at h
      · simp [hkeyword] at h
    all_goals cases h

end IsHeaded

namespace Lint

/-- The linter finds nothing wrong with a good header. -/
theorem headerViolations_of_isHeaded {body : Body} {blanks rest : List NumberedLine} {header : NumberedLine}
    (h : IsHeaded body.lines blanks header rest) (suggested : Direction) : headerViolations suggested body = [] := by
  obtain ⟨hsplit, hblank, keyword, token, hclass, hkeyword, htoken⟩ := h
  have hfirst : body.lines.find? (!·.isBlank) = some header := by
    refine List.find?_eq_some_iff_append.2 ⟨?_, blanks, rest, hsplit, fun line hline => ?_⟩
    · rw [Bool.not_eq_true']
      refine Bool.eq_false_iff.2 fun hb => ?_
      rw [NumberedLine.classify_eq_blank_iff.2 hb] at hclass
      cases hclass
    · rw [NumberedLine.classify_eq_blank_iff.1 (hblank line hline)]
      rfl
  have hsome : (Direction.ofToken? token).isNone = false := by simpa [Option.isSome_iff_ne_none] using htoken
  simp only [headerViolations, hfirst, hclass, hkeyword, hsome, if_true, Bool.false_eq_true, if_false]

/-- Where the linting finds no fault with the header, there is one. -/
theorem exists_isHeaded {body : Body} {suggested : Direction} (h : headerViolations suggested body = []) :
    ∃ blanks header rest, IsHeaded body.lines blanks header rest := by
  unfold headerViolations at h
  cases hfirst : body.lines.find? (!·.isBlank) with
  | none =>
    rw [hfirst] at h
    cases h
  | some header =>
    obtain ⟨-, blanks, rest, hsplit, hblank⟩ := List.find?_eq_some_iff_append.1 hfirst
    have hskipped : ∀ line ∈ blanks, Line.classify line.text = .blank := by
      intro line hline
      exact NumberedLine.classify_eq_blank_iff.2 (by simpa using hblank line hline)
    simp only [hfirst] at h
    cases hclass : Line.classify header.text
    all_goals simp only [hclass] at h
    case header keyword direction? =>
      by_cases hkeyword : Line.isFlowchartKeyword keyword = true
      · by_cases hdirection : (direction?.bind Direction.ofToken?).isSome = true
        · exact ⟨blanks, header, rest, hsplit, hskipped, .of_classify hclass hkeyword hdirection⟩
        · cases direction? with
          | none => simp [hkeyword] at h
          | some token =>
            have hnone : Direction.ofToken? token = none := Option.not_isSome_iff_eq_none.1 hdirection
            simp [hkeyword, hnone] at h
      · simp [hkeyword] at h
    all_goals cases h

end Lint

/-! ## Statements -/

/-- The label is without quotes and holds a pipe. -/
def NodeRef.HasBarePipe (ref : NodeRef) : Prop := ∃ span, ref.span? = some span ∧ span.hasBarePipe = true

namespace Statement

/-- What makes a text a statement of the grammar. -/
theorem of_check {text : List Char} (h : check text = .ok ()) :
    ∃ s, parse text = .ok s ∧ (∀ link ∈ s.links, link.arrow ≠ .other) ∧ ∀ ref ∈ s.refs, ¬ ref.HasBarePipe := by
  unfold check at h
  cases hparse : parse text with
  | error e =>
    rw [hparse] at h
    cases h
  | ok s =>
    refine ⟨s, rfl, ?_⟩
    simp only [hparse] at h
    split at h
    · cases h
    · rename_i harrows
      split at h
      · cases h
      · rename_i hnone
        rw [List.find?_eq_none] at harrows hnone
        refine ⟨fun link hlink => by simpa using harrows link hlink, ?_⟩
        rintro ref href ⟨span, hspan, hbare⟩
        exact hnone span (List.mem_filterMap.2 ⟨ref, href, hspan⟩) hbare

/-- A statement whose labels are right can only have an arrow of another style. -/
theorem exists_link_of_check {text : List Char} {s : Statement} {fault : SyntaxFault} (hparse : parse text = .ok s)
    (hbare : ∀ ref ∈ s.refs, ¬ ref.HasBarePipe) (h : check text = .error fault) :
    ∃ link ∈ s.links, link.arrow = .other ∧ fault = .unsupportedArrow link.column := by
  unfold check at h
  simp only [hparse] at h
  split at h
  · rename_i link hlink
    cases h
    exact ⟨link, List.mem_of_find?_eq_some hlink, by simpa using List.find?_some hlink, rfl⟩
  · split at h
    · rename_i span hspan
      obtain ⟨ref, href, hsome⟩ := List.mem_filterMap.1 (List.mem_of_find?_eq_some hspan)
      exact absurd ⟨span, hsome, List.find?_some hspan⟩ (hbare ref href)
    · cases h

end Statement

namespace Lint

/-- Of what is wrong with a label only a bare pipe is an error. -/
theorem hasBarePipe_of_mem_labelFaults {ref : NodeRef} {fault : Fault} (h : fault ∈ labelFaults ref)
    (herror : fault.severity = .error) : ref.HasBarePipe := by
  unfold labelFaults at h
  split at h
  · cases h
  · rename_i span hspan
    simp only [List.mem_append] at h
    rcases h with (h | h) | h
    · split at h
      · rename_i hbare
        exact ⟨span, hspan, hbare⟩
      · cases h
    all_goals
      split at h
      · rw [List.mem_singleton.1 h] at herror
        cases herror
      · cases h

/-- A label with a bare pipe is at fault. -/
theorem barePipe_mem_labelFaults {ref : NodeRef} (h : ref.HasBarePipe) : .barePipe ref.id ∈ labelFaults ref := by
  obtain ⟨span, hspan, hbare⟩ := h
  unfold labelFaults
  simp only [hspan, List.mem_append]
  rw [ShapeSpan.hasBarePipe] at hbare
  rw [if_pos hbare]
  exact Or.inl (Or.inl List.mem_cons_self)

/-- In a statement of the grammar the linting finds no error but an `&` without blanks. -/
theorem exists_of_mem_statementViolations {text : List Char} {line indent : Nat} {v : Violation}
    (hcheck : Statement.check text = .ok ()) (h : v ∈ statementViolations line indent text) (herror : v.isError = true) :
    ∃ s, Statement.parse text = .ok s ∧ ∃ column ∈ s.ampersands, v = atColumn line (indent + column) .crampedAmpersand := by
  obtain ⟨s, hparse, -, hbare⟩ := Statement.of_check hcheck
  refine ⟨s, hparse, ?_⟩
  simp only [statementViolations, hparse] at h
  rcases List.mem_append.1 h with h | h
  · obtain ⟨ref, href, h⟩ := List.mem_flatMap.1 h
    obtain ⟨fault, hfault, rfl⟩ := List.mem_map.1 h
    exact absurd (hasBarePipe_of_mem_labelFaults hfault (beq_iff_eq.1 herror)) (hbare ref href)
  · split at h
    · cases h
    · obtain ⟨column, hcolumn, rfl⟩ := List.mem_map.1 h
      exact ⟨column, List.mem_of_mem_filter hcolumn, rfl⟩

/-- A text in which the linting finds no error is a statement with right labels. -/
theorem parse_of_statementViolations {text : List Char} (line indent : Nat)
    (h : ∀ v ∈ statementViolations line indent text, v.isError = false) :
    ∃ s, Statement.parse text = .ok s ∧ ∀ ref ∈ s.refs, ¬ ref.HasBarePipe := by
  unfold statementViolations at h
  cases hparse : Statement.parse text with
  | error e =>
    rw [hparse] at h
    have hnone := h _ List.mem_cons_self
    rw [isError_of_code (code_faultOfStatement text e.fault) (by decide)] at hnone
    cases hnone
  | ok s =>
    rw [hparse] at h
    refine ⟨s, rfl, fun ref href hbare => ?_⟩
    have hmem := List.mem_map_of_mem (f := atColumn line (indent + ref.column)) (barePipe_mem_labelFaults hbare)
    have hnone := h _ (List.mem_append_left _ (List.mem_flatMap.2 ⟨ref, href, hmem⟩))
    cases hnone

end Lint

/-! ## Groups -/

/-- How many groups are open after a line. -/
def openAfter (count : Nat) : Line → Nat
  | .groupOpen _ => count + 1
  | .groupClose => count - 1
  | _ => count

/-- How many groups are open after some lines. -/
def openGroups (count : Nat) (lines : List NumberedLine) : Nat :=
  lines.foldl (fun count line => openAfter count (Line.classify line.text)) count

/-- What is wrong with a line that opens a group, closes one or gives one a direction. -/
def groupFault? (count : Nat) : Line → Option Lint.Fault
  | .groupOpen title => if title.isEmpty then some .groupWithoutName else none
  | .groupClose => if count = 0 then some .groupNotOpen else none
  | .direction token => if (Direction.ofToken? token).isNone then some (.unknownGroupDirection token) else none
  | _ => none

/-- The linting finds what is wrong with the groups line by line. -/
theorem Lint.groupViolations_cons (opened : List Nat) (line : NumberedLine) (rest : List NumberedLine) :
    ∃ later, later.length = openAfter opened.length (Line.classify line.text) ∧
      groupViolations opened (line :: rest) =
        ((groupFault? opened.length (Line.classify line.text)).map (atLine line.number)).toList ++
          groupViolations later rest := by
  rw [groupViolations]
  cases hclass : Line.classify line.text with
  | groupOpen title =>
    refine ⟨line.number :: opened, rfl, ?_⟩
    simp only [groupFault?]
    split <;> rfl
  | groupClose =>
    refine ⟨opened.tail, by simp [openAfter], ?_⟩
    cases opened <;> rfl
  | direction token =>
    refine ⟨opened, rfl, ?_⟩
    simp only [groupFault?]
    split <;> rfl
  | blank | comment | fence | header _ _ | directive _ | statement _ => exact ⟨opened, rfl, rfl⟩

/-! ## The lines after the header -/

namespace Progress

/-- What a line behind the header can be that belongs to the grammar, where as many groups are open. -/
inductive Accepts (count : Nat) (raw : List Char) : Prop where
  | blank (hclass : Line.classify raw = .blank)
  | comment (hclass : Line.classify raw = .comment)
  | groupOpen {title : List Char} (hclass : Line.classify raw = .groupOpen title) (htitle : title ≠ [])
  | groupClose (hclass : Line.classify raw = .groupClose) (hopen : count ≠ 0)
  | direction {token : String} (hclass : Line.classify raw = .direction token) (hopen : count ≠ 0)
    (htoken : (Direction.ofToken? token).isSome = true)
  | statement {text : List Char} (hclass : Line.classify raw = .statement text) (hcheck : Statement.check text = .ok ())

/-- What the grammar makes of a line that belongs to it. -/
theorem accepts_of_step {count : Nat} {raw : List Char} {next : Progress} (h : (inBody count).step raw = .ok next) :
    next = .inBody (openAfter count (Line.classify raw)) ∧ Accepts count raw := by
  unfold step at h
  cases hclass : Line.classify raw with
  | groupOpen title =>
    simp only [hclass] at h
    split at h
    · cases h
    · rename_i htitle
      cases h
      exact ⟨rfl, .groupOpen hclass (by simpa using htitle)⟩
  | groupClose =>
    cases count with
    | zero =>
      simp only [hclass] at h
      cases h
    | succ count =>
      simp only [hclass] at h
      cases h
      exact ⟨rfl, .groupClose hclass (Nat.succ_ne_zero count)⟩
  | direction token =>
    simp only [hclass, Bool.or_eq_true, decide_eq_true_eq] at h
    split at h
    · cases h
    · rename_i hfault
      cases h
      obtain ⟨hopen, htoken⟩ := not_or.1 hfault
      exact ⟨rfl, .direction hclass hopen (by simpa [Option.isSome_iff_ne_none] using htoken)⟩
  | statement text =>
    simp only [hclass] at h
    cases hcheck : Statement.check text with
    | error fault =>
      rw [hcheck] at h
      cases h
    | ok u =>
      rw [hcheck] at h
      cases h
      exact ⟨rfl, .statement hclass hcheck⟩
  | blank =>
    simp only [hclass] at h
    cases h
    exact ⟨rfl, .blank hclass⟩
  | comment =>
    simp only [hclass] at h
    cases h
    exact ⟨rfl, .comment hclass⟩
  | fence | header _ _ | directive _ =>
    simp only [hclass] at h
    cases h

/-- The linting finds nothing wrong with the groups in such a line. -/
theorem Accepts.groupFault? {count : Nat} {raw : List Char} (h : Accepts count raw) :
    groupFault? count (Line.classify raw) = none := by
  cases h with
  | blank hclass | comment hclass | statement hclass _ =>
    rw [hclass]
    rfl
  | groupOpen hclass htitle =>
    rw [hclass]
    exact if_neg (by simpa using htitle)
  | groupClose hclass hopen =>
    rw [hclass]
    exact if_neg hopen
  | direction hclass _ htoken =>
    rw [hclass]
    exact if_neg (by simpa [Option.isSome_iff_ne_none] using htoken)

/-- If such a line is a statement, it is one of the grammar. -/
theorem Accepts.check {count : Nat} {raw text : List Char} (h : Accepts count raw)
    (hstatement : Line.classify raw = .statement text) : Statement.check text = .ok () := by
  cases h with
  | statement hclass hcheck =>
    cases hclass.symm.trans hstatement
    exact hcheck
  | blank hclass | comment hclass | groupOpen hclass _ | groupClose hclass _ | direction hclass _ _ =>
    cases hclass.symm.trans hstatement

/-- A line that belongs to the grammar, from where it stands among the lines after a header. -/
theorem accepts_of_run {before after : List NumberedLine} {line : NumberedLine} {count last : Nat}
    (h : (inBody count).run last (before ++ line :: after) = .ok ()) : Accepts (openGroups count before) line.text := by
  induction before generalizing count last with
  | nil =>
    rw [List.nil_append, run] at h
    cases hstep : (inBody count).step line.text with
    | error fault =>
      rw [hstep] at h
      cases h
    | ok next => exact (accepts_of_step hstep).2
  | cons first before ih =>
    rw [List.cons_append, run] at h
    cases hstep : (inBody count).step first.text with
    | error fault =>
      rw [hstep] at h
      cases h
    | ok next =>
      rw [hstep, (accepts_of_step hstep).1] at h
      exact ih h

/-- How a line can fall short of the grammar although the linting finds nothing wrong with it, where as many groups are open. -/
inductive FallsShort (count : Nat) (raw : List Char) : SyntaxFault → Prop where
  | header {keyword : String} {direction? : Option String} (hclass : Line.classify raw = .header keyword direction?) :
    FallsShort count raw .headerRepeated
  | directive {keyword : String} (hclass : Line.classify raw = .directive keyword) :
    FallsShort count raw (.directive keyword)
  | direction {token : String} (hclass : Line.classify raw = .direction token) (hcount : count = 0)
    (htoken : (Direction.ofToken? token).isSome = true) : FallsShort count raw (.badGroupDirection token)
  | arrow {text : List Char} {s : Statement} {link : Link} (hclass : Line.classify raw = .statement text)
    (hparse : Statement.parse text = .ok s) (hlink : link ∈ s.links) (harrow : link.arrow = .other) :
    FallsShort count raw (.unsupportedArrow link.column)

/-- The linting finds nothing wrong with a line that is a statement. -/
def IsCleanStatement (raw : List Char) : Prop :=
  ∀ text, Line.classify raw = .statement text → ∃ s, Statement.parse text = .ok s ∧ ∀ ref ∈ s.refs, ¬ ref.HasBarePipe

/-- A line that the linting finds nothing wrong with belongs to the grammar, or falls short of it. -/
theorem of_step_eq_error {count : Nat} {raw : List Char} {fault : SyntaxFault} (h : (inBody count).step raw = .error fault)
    (hfence : Line.classify raw ≠ .fence) (hgroup : groupFault? count (Line.classify raw) = none)
    (hstatement : IsCleanStatement raw) : FallsShort count raw fault := by
  unfold step at h
  cases hclass : Line.classify raw with
  | groupOpen title =>
    rw [hclass] at hgroup
    simp only [hclass] at h
    split at h
    · rename_i htitle
      rw [groupFault?, if_pos htitle] at hgroup
      cases hgroup
    · cases h
  | groupClose =>
    rw [hclass] at hgroup
    cases count with
    | zero => cases hgroup
    | succ count =>
      simp only [hclass] at h
      cases h
  | direction token =>
    have hsome : (Direction.ofToken? token).isNone = false := by
      cases htoken : (Direction.ofToken? token).isNone with
      | false => rfl
      | true =>
        rw [hclass, groupFault?, if_pos htoken] at hgroup
        cases hgroup
    simp only [hclass, hsome, Bool.or_false, decide_eq_true_eq] at h
    split at h
    · rename_i hcount
      cases h
      exact .direction hclass hcount (by simpa [Option.isSome_iff_ne_none] using hsome)
    · cases h
  | statement text =>
    obtain ⟨s, hparse, hbare⟩ := hstatement text hclass
    simp only [hclass] at h
    cases hcheck : Statement.check text with
    | error fault =>
      rw [hcheck] at h
      cases h
      obtain ⟨link, hlink, harrow, rfl⟩ := Statement.exists_link_of_check hparse hbare hcheck
      exact .arrow hclass hparse hlink harrow
    | ok u =>
      rw [hcheck] at h
      cases h
  | blank | comment =>
    simp only [hclass] at h
    cases h
  | fence => exact absurd hclass hfence
  | header keyword direction? =>
    simp only [hclass] at h
    cases h
    exact .header hclass
  | directive keyword =>
    simp only [hclass] at h
    cases h
    exact .directive hclass

/-- If the lines after a header belong to the grammar, the linting finds nothing wrong with their groups, and their
statements are statements of the grammar. -/
theorem of_run {lines : List NumberedLine} {count last : Nat} (h : (inBody count).run last lines = .ok ()) :
    (∀ opened : List Nat, opened.length = count → Lint.groupViolations opened lines = []) ∧
      ∀ line ∈ lines, ∀ text, Line.classify line.text = .statement text → Statement.check text = .ok () := by
  induction lines generalizing count last with
  | nil =>
    cases count with
    | zero =>
      refine ⟨fun opened hopened => ?_, nofun⟩
      rw [List.length_eq_zero_iff.1 hopened]
      rfl
    | succ count => cases h
  | cons line rest ih =>
    rw [run] at h
    cases hstep : (inBody count).step line.text with
    | error fault =>
      rw [hstep] at h
      cases h
    | ok next =>
      rw [hstep] at h
      obtain ⟨rfl, haccepts⟩ := accepts_of_step hstep
      obtain ⟨hgroups, hstatements⟩ := ih h
      refine ⟨fun opened hopened => ?_, List.forall_mem_cons.2 ⟨fun _ => haccepts.check, hstatements⟩⟩
      obtain ⟨later, hlater, heq⟩ := Lint.groupViolations_cons opened line rest
      rw [hopened] at hlater heq
      rw [heq, haccepts.groupFault?, hgroups later hlater]
      rfl

/-- If the linting finds nothing wrong with the lines after a header, they belong to the grammar, or the first that does not
falls short of it. -/
theorem of_run_eq_error {lines : List NumberedLine} (opened : List Nat) {last : Nat} {e : SyntaxError}
    (h : (inBody opened.length).run last lines = .error e) (hfence : ∀ line ∈ lines, Line.classify line.text ≠ .fence)
    (hgroups : Lint.groupViolations opened lines = []) (hstatements : ∀ line ∈ lines, IsCleanStatement line.text) :
    ∃ before line after, lines = before ++ line :: after ∧ e.line = line.number ∧
      FallsShort (openGroups opened.length before) line.text e.fault := by
  induction lines generalizing opened last with
  | nil =>
    rw [Lint.groupViolations, List.map_eq_nil_iff, List.reverse_eq_nil_iff] at hgroups
    rw [hgroups] at h
    cases h
  | cons line rest ih =>
    obtain ⟨later, hlater, heq⟩ := Lint.groupViolations_cons opened line rest
    obtain ⟨hgroup, hrest⟩ := List.append_eq_nil_iff.1 (heq ▸ hgroups)
    have hgroup : groupFault? opened.length (Line.classify line.text) = none := by simpa using hgroup
    obtain ⟨hfenceFirst, hfenceRest⟩ := List.forall_mem_cons.1 hfence
    obtain ⟨hcleanFirst, hcleanRest⟩ := List.forall_mem_cons.1 hstatements
    rw [run] at h
    cases hstep : (inBody opened.length).step line.text with
    | error fault =>
      rw [hstep] at h
      cases h
      exact ⟨[], line, rest, rfl, rfl, of_step_eq_error hstep hfenceFirst hgroup hcleanFirst⟩
    | ok next =>
      rw [hstep] at h
      obtain ⟨rfl, -⟩ := accepts_of_step hstep
      rw [← hlater] at h
      obtain ⟨before, first, after, rfl, hline, hshort⟩ := ih later h hfenceRest hrest hcleanRest
      rw [hlater] at hshort
      exact ⟨line :: before, first, after, rfl, hline, hshort⟩

end Progress

/-! ## The two together -/

namespace Lint

/-- There is no extra text without stray fences and without lines outside. -/
theorem extraTextViolations_eq_nil_iff {body : Body} :
    extraTextViolations body = [] ↔ body.strayFences.head?.or body.outside.head? = none := by
  unfold extraTextViolations
  rw [List.append_eq_nil_iff, List.map_eq_nil_iff, Option.or_eq_none_iff, List.head?_eq_none_iff, List.head?_eq_none_iff]
  refine and_congr_right fun _ => ?_
  cases body.outside <;> simp

/-- Checks that find nothing but errors find nothing where there are none. -/
theorem eq_nil_of_code {found : List Violation} {codes : List Code} (hfound : ∀ v ∈ found, v.fault.code ∈ codes)
    (hcodes : Code.badLabel ∉ codes ∧ Code.sizeCap ∉ codes) (hnone : ∀ v ∈ found, v.isError = false) : found = [] := by
  refine List.eq_nil_iff_forall_not_mem.2 fun v hv => ?_
  have herror := isError_of_code (hfound v hv) hcodes
  rw [hnone v hv] at herror
  cases herror

/-- What the linting of a text without errors has found. -/
theorem of_isOk {options : Options} {text : String} (h : (report options text).isOk = true) :
    headerViolations options.direction (Body.ofText text.toList) = [] ∧
      groupViolations [] (Body.ofText text.toList).lines = [] ∧
      extraTextViolations (Body.ofText text.toList) = [] ∧
      ∀ v ∈ statementsViolations (Body.ofText text.toList), v.isError = false := by
  rw [Report.isOk, Bool.not_eq_true', List.any_eq_false] at h
  have hnone : ∀ v ∈ violations options text, v.isError = false := fun v hv => Bool.eq_false_iff.2 (h v hv)
  simp only [violations, List.forall_mem_append] at hnone
  obtain ⟨⟨⟨⟨⟨hheader, -⟩, hstatements⟩, hgroups⟩, -⟩, hextra⟩ := hnone
  exact ⟨eq_nil_of_code (fun _ => code_of_mem_headerViolations) (by decide) hheader,
    eq_nil_of_code (fun _ => code_of_mem_groupViolations) (by decide) hgroups,
    eq_nil_of_code (fun _ => code_of_mem_extraTextViolations) (by decide) hextra, hstatements⟩

end Lint

/-- A statement comes after the header. -/
theorem IsHeaded.mem_rest {lines blanks rest : List NumberedLine} {header line : NumberedLine}
    (h : IsHeaded lines blanks header rest) (hline : line ∈ lines) {text : List Char}
    (hclass : Line.classify line.text = .statement text) : line ∈ rest := by
  rw [h.split] at hline
  rcases List.mem_append.1 hline with hblank | hline
  · rw [h.blank line hblank] at hclass
    cases hclass
  · rcases List.mem_cons.1 hline with rfl | hrest
    · obtain ⟨keyword, token, hheader, -⟩ := h.good
      rw [hheader] at hclass
      cases hclass
    · exact hrest

/-- Up to the header no line opens or closes a group. -/
theorem IsHeaded.groupViolations_eq {lines blanks rest : List NumberedLine} {header : NumberedLine}
    (h : IsHeaded lines blanks header rest) : Lint.groupViolations [] lines = Lint.groupViolations [] rest := by
  obtain ⟨rfl, hblank, keyword, token, hheader, -⟩ := h
  induction blanks with
  | nil => simp only [List.nil_append, Lint.groupViolations, hheader]
  | cons blank blanks ih =>
    obtain ⟨hfirst, hothers⟩ := List.forall_mem_cons.1 hblank
    simp only [List.cons_append, Lint.groupViolations, hfirst]
    exact ih hothers

/-- Up to the header no group is open. -/
theorem IsHeaded.openGroups_eq {lines blanks rest : List NumberedLine} {header : NumberedLine}
    (h : IsHeaded lines blanks header rest) (before : List NumberedLine) :
    openGroups 0 (blanks ++ header :: before) = openGroups 0 before := by
  obtain ⟨-, hblank, keyword, token, hheader, -⟩ := h
  induction blanks with
  | nil => simp only [List.nil_append, openGroups, List.foldl_cons, hheader, openAfter]
  | cons blank blanks ih =>
    obtain ⟨hfirst, hothers⟩ := List.forall_mem_cons.1 hblank
    simp only [List.cons_append, openGroups, List.foldl_cons, hfirst, openAfter]
    exact ih hothers

/-- In a text of the grammar the linting finds no errors but keywords and, in a statement, an `&` without blanks. -/
theorem exists_of_checkSyntax {text : String} (h : checkSyntax text = .ok ()) {options : Lint.Options} {v : Lint.Violation}
    (hv : v ∈ (Lint.report options text).errors) :
    v.fault.code = .forbiddenFeature ∨ v.fault.code = .erOrGantt ∨
      v.fault = .crampedAmpersand ∧ ∃ line ∈ (Body.ofText text.toList).lines, ∃ statement s,
        Line.classify line.text = .statement statement ∧ Statement.parse statement = .ok s ∧ s.ampersands ≠ [] := by
  obtain ⟨hv, herror⟩ := List.mem_filter.1 hv
  unfold checkSyntax at h
  simp only at h
  split at h
  · cases h
  · rename_i hextra
    obtain ⟨blanks, header, rest, hheaded⟩ := IsHeaded.exists_of_run h
    rw [hheaded.run_eq] at h
    obtain ⟨hgroups, hstatements⟩ := Progress.of_run h
    simp only [Lint.report, Lint.violations, List.mem_append, Lint.headerViolations_of_isHeaded hheaded,
      Lint.extraTextViolations_eq_nil_iff.2 hextra, hheaded.groupViolations_eq, hgroups [] rfl, List.not_mem_nil, or_false,
      false_or] at hv
    rcases hv with (hv | hv) | hv
    · rcases Lint.code_of_mem_forbiddenViolations hv with hcode | hcode
      · exact Or.inl hcode
      · exact Or.inr (Or.inl hcode)
    · obtain ⟨line, hline, hv⟩ := List.mem_flatMap.1 hv
      split at hv
      · rename_i statement hclass
        have hcheck := hstatements line (hheaded.mem_rest hline hclass) statement hclass
        obtain ⟨s, hparse, column, hcolumn, rfl⟩ := Lint.exists_of_mem_statementViolations hcheck hv herror
        exact Or.inr (Or.inr ⟨rfl, line, hline, statement, s, hclass, hparse, List.ne_nil_of_mem hcolumn⟩)
      · cases hv
    · cases hlimits : options.limits? with
      | none =>
        rw [hlimits] at hv
        cases hv
      | some limits =>
        rw [hlimits] at hv
        have hcode := List.mem_singleton.1 (Lint.code_of_mem_sizeViolations hv)
        rw [Lint.Violation.isError, (Lint.severity_eq_warning_iff v.fault).2 (Or.inr hcode)] at herror
        cases herror

/-- What these errors are. -/
theorem fault_of_checkSyntax {text : String} (h : checkSyntax text = .ok ()) {options : Lint.Options} {v : Lint.Violation}
    (hv : v ∈ (Lint.report options text).errors) :
    v.fault.code = .forbiddenFeature ∨ v.fault.code = .erOrGantt ∨
      v.fault.code = .inlineLinkSyntax ∧ v.fault = .crampedAmpersand := by
  rcases exists_of_checkSyntax h hv with hcode | hcode | ⟨hfault, -⟩
  · exact Or.inl hcode
  · exact Or.inr (Or.inl hcode)
  · exact Or.inr (Or.inr ⟨by rw [hfault]; rfl, hfault⟩)

/-- A text in which the linting finds no errors belongs to the grammar, or a line after its header falls short of it. -/
theorem fallsShort_of_isOk {options : Lint.Options} {text : String} (h : (Lint.report options text).isOk = true)
    {e : SyntaxError} (he : checkSyntax text = .error e) :
    ∃ before line after, (Body.ofText text.toList).lines = before ++ line :: after ∧ e.line = line.number ∧
      (∃ header ∈ before, header.IsGoodHeader) ∧ Progress.FallsShort (openGroups 0 before) line.text e.fault := by
  obtain ⟨hheader, hgroups, hextra, hstatements⟩ := Lint.of_isOk h
  obtain ⟨blanks, header, rest, hheaded⟩ := Lint.exists_isHeaded hheader
  unfold checkSyntax at he
  simp only [Lint.extraTextViolations_eq_nil_iff.1 hextra, hheaded.run_eq] at he
  have hmem : ∀ line ∈ rest, line ∈ (Body.ofText text.toList).lines := by
    intro line hline
    rw [hheaded.split]
    exact List.mem_append_right _ (List.mem_cons_of_mem _ hline)
  have hfence : ∀ line ∈ rest, Line.classify line.text ≠ .fence := fun line hline =>
    NumberedLine.classify_ne_fence (Body.isFence_of_mem_lines (hmem line hline))
  have hclean : ∀ line ∈ rest, Progress.IsCleanStatement line.text := by
    intro line hline statement hclass
    refine Lint.parse_of_statementViolations line.number (line.text.takeWhile isBlank).length ?_
    intro v hv
    refine hstatements v (List.mem_flatMap.2 ⟨line, hmem line hline, ?_⟩)
    rw [hclass]
    exact hv
  rw [hheaded.groupViolations_eq] at hgroups
  obtain ⟨before, line, after, hrest, hnumber, hshort⟩ := Progress.of_run_eq_error [] he hfence hgroups hclean
  refine ⟨blanks ++ header :: before, line, after, ?_, hnumber, ⟨header, by simp, hheaded.good⟩, ?_⟩
  · rw [hheaded.split, hrest]
    simp
  · rw [hheaded.openGroups_eq]
    exact hshort

/-- If a text belongs to the strict grammar, every error that the linting finds in it, whatever it looks for, is a keyword or an
`&` without the blanks around it. If the linting finds no error in a text, the text belongs to the grammar, or else its first
error is in a line after the header: a second header, a directive, a direction while no group is open, or a statement with
an arrow of another style. -/
theorem checkSyntax_agrees (text : String) :
    (checkSyntax text = .ok () → ∀ options, ∀ v ∈ (Lint.report options text).errors,
      v.fault.code = .forbiddenFeature ∨ v.fault.code = .erOrGantt ∨
        v.fault.code = .inlineLinkSyntax ∧ v.fault = .crampedAmpersand) ∧
    ∀ options, (Lint.report options text).isOk = true → ∀ e, checkSyntax text = .error e →
      ∃ before line after, (Body.ofText text.toList).lines = before ++ line :: after ∧ e.line = line.number ∧
        (∃ header ∈ before, header.IsGoodHeader) ∧ Progress.FallsShort (openGroups 0 before) line.text e.fault :=
  ⟨fun h _ _ hv => fault_of_checkSyntax h hv, fun _ h _ he => fallsShort_of_isOk h he⟩

/-- A text of the grammar that the linting objects to, and one that it does not object to, outside of the grammar. -/
theorem checkSyntax_agrees_cramped :
    let cramped := "flowchart TD\n    a &b --> c\n"
    let thick := "flowchart TD\n    a ==> b\n"
    (checkSyntax cramped = .ok () ∧ Lint.atColumn 2 7 .crampedAmpersand ∈ (Lint.report {} cramped).errors ∧
      ∀ v ∈ (Lint.report {} cramped).errors, v.fault.code = .forbiddenFeature ∨ v.fault.code = .erOrGantt ∨
        v.fault.code = .inlineLinkSyntax ∧ v.fault = .crampedAmpersand) ∧
    (Lint.report {} thick).isOk = true ∧ checkSyntax thick = .error ⟨2, .unsupportedArrow 3⟩ ∧
      ∃ before line after, (Body.ofText thick.toList).lines = before ++ line :: after ∧ 2 = line.number ∧
        (∃ header ∈ before, header.IsGoodHeader) ∧
        Progress.FallsShort (openGroups 0 before) line.text (.unsupportedArrow 3) := by
  intro cramped thick
  have hcramped : checkSyntax cramped = .ok () := by decide +kernel
  have hthick : (Lint.report {} thick).isOk = true := by decide +kernel
  have herror : checkSyntax thick = .error ⟨2, .unsupportedArrow 3⟩ := by decide +kernel
  exact ⟨⟨hcramped, by decide +kernel, (checkSyntax_agrees cramped).1 hcramped {}⟩, hthick, herror,
    (checkSyntax_agrees thick).2 {} hthick _ herror⟩

end Whiteboard
