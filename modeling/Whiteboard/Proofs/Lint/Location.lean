import Whiteboard.Proofs.Diagram.Column
import Whiteboard.Proofs.Lint.Forbidden

/-!
# Where a violation is

Main statement: every violation of a report that has a place is on a line of the text, fences counted, and within the columns
of that line; and where the fault is a forbidden keyword, a bracket, the label of a node or an `&` without its blanks, the
line goes on at the column with just that, which the message quotes (`Lint.report_located`).

A line of a body keeps its number in the whole text (`Body.numbered_ofText`), so lines come out right of themselves. A column
of a statement counts the characters of the statement; as many blanks stand before it in its line as are counted in
(`Line.standsAt_of_classify`).
-/

namespace Whiteboard

open Text

/-- What stands in a statement stands in its line, behind the indentation. -/
theorem Line.standsAt_of_classify {raw text mark : List Char} {column : Nat} (h : classify raw = .statement text)
    (hmark : StandsAt mark text column) : StandsAt mark raw ((raw.takeWhile isBlank).length + column) := by
  obtain rfl := text_of_classify h
  obtain ⟨semicolons, hsemicolons, -⟩ := exists_dropEndWhile_append (· == ';') (trim raw)
  obtain ⟨blanks, hsplit, -⟩ := exists_trim_append raw
  have hline := hmark.append (raw.takeWhile isBlank) (semicolons ++ blanks)
  rwa [← List.append_assoc (dropEndWhile _ _), ← hsemicolons, ← hsplit] at hline

namespace Lint

/-! ## What a fault is about -/

/-- What a fault is about as it stands in the text: the keyword, the bracket, the id of the node or the `&`. -/
def Fault.mark? : Fault → Option String
  | forbidden keyword | entityOrGantt keyword => some keyword
  | badBracket opener => some opener
  | barePipe id | backticks id | longLabel id _ => some id
  | crampedAmpersand => some "&"
  | _ => none

/-- The classes of faults that are about a piece of the text. -/
def markedCodes : List Code := [.forbiddenFeature, .erOrGantt, .badShape, .unescapedPipe, .badLabel]

/-- The faults that are about a piece of the text are those of these classes and the `&` without its blanks. -/
theorem isSome_mark?_iff (fault : Fault) :
    fault.mark?.isSome = true ↔ fault.code ∈ markedCodes ∨ fault = .crampedAmpersand := by
  cases fault <;> simp [Fault.mark?, Fault.code, markedCodes]

/-- The message of a fault quotes what the fault is about. -/
theorem exists_message_eq {fault : Fault} {mark : String} (h : mark ∈ fault.mark?) :
    ∃ before after, fault.message = before ++ Fault.quoted mark ++ after := by
  cases fault
  case forbidden | entityOrGantt =>
    cases h
    exact ⟨"", _, by rw [String.empty_append]; rfl⟩
  case badBracket =>
    cases h
    exact ⟨"unsupported or unclosed shape bracket ", "", by rw [String.append_empty]; rfl⟩
  case barePipe =>
    cases h
    exact ⟨"label of ", " contains `|`", rfl⟩
  case backticks =>
    cases h
    exact ⟨"label of ", " contains backticks", rfl⟩
  case longLabel id length =>
    cases h
    refine ⟨"label of ", " is " ++ (toString length ++ " characters"), ?_⟩
    rw [← String.append_assoc, ← String.append_assoc]
    rfl
  case crampedAmpersand =>
    cases h
    exact ⟨"multi-target ", " must be written as ` & `", by decide +kernel⟩
  all_goals cases h

/-- The mark of a statement that cannot be read is the bracket that it is about. -/
theorem mark?_faultOfStatement (text : List Char) (fault : StatementFault) :
    (faultOfStatement text fault).mark? = fault.opener? := by
  cases fault
  case nodeExpected =>
    unfold faultOfStatement
    simp only
    split <;> rfl
  all_goals rfl

/-- The mark of a bad label is the id of its node. -/
theorem mark?_of_mem_labelFaults {ref : NodeRef} {fault : Fault} (h : fault ∈ labelFaults ref) :
    fault.mark? = some ref.id := by
  unfold labelFaults at h
  split at h
  · cases h
  · simp only [List.mem_append] at h
    rcases h with (h | h) | h
    all_goals
      split at h
      · rw [List.mem_singleton.1 h]
        rfl
      · cases h

/-! ## Places -/

/-- A violation is where it says, in a text of the given lines: its place is on one of them, at a column that the line has, and
what the fault is about stands at that column. -/
structure Violation.IsLocated (v : Violation) (raws : List (List Char)) : Prop where
  place : ∀ place ∈ v.location?, ∃ i raw, raws[i]? = some raw ∧ place.line = i + 1 ∧
    ∀ column ∈ place.column?, 1 ≤ column ∧ column ≤ raw.length + 1
  mark : ∀ mark ∈ v.fault.mark?, ∃ i raw column, raws[i]? = some raw ∧ v.location? = some ⟨i + 1, some column⟩ ∧
    StandsAt mark.toList raw column

variable {text : List Char} {line : NumberedLine} {fault : Fault} {v : Violation}

/-- A fault of the whole text has no place. -/
theorem isLocated_nowhere (hmark : fault.mark? = none) (raws : List (List Char)) :
    (⟨fault, none⟩ : Violation).IsLocated raws :=
  ⟨nofun, by rw [hmark]; nofun⟩

/-- A fault of a whole line is on the line. -/
theorem isLocated_atLine {number : Nat} (hnumber : ∃ line ∈ numberedLines text, line.number = number)
    (hmark : fault.mark? = none) : (atLine number fault).IsLocated (lines text) := by
  obtain ⟨line, hline, rfl⟩ := hnumber
  obtain ⟨i, hraw, hi⟩ := mem_numberedLines_iff.1 hline
  refine ⟨?_, by rw [atLine, hmark]; nofun⟩
  rintro place ⟨⟩
  exact ⟨i, line.text, hraw, hi, nofun⟩

/-- A check that finds a fault of a line under some condition finds it on the line. -/
theorem isLocated_of_mem_ite {c : Prop} [Decidable c] {number : Nat}
    (hnumber : ∃ line ∈ numberedLines text, line.number = number) (hmark : fault.mark? = none)
    (h : v ∈ if c then [atLine number fault] else []) : v.IsLocated (lines text) := by
  split at h
  · rw [List.mem_singleton.1 h]
    exact isLocated_atLine hnumber hmark
  · cases h

/-- A fault at a column is there if what it is about stands there. -/
theorem isLocated_atColumn (hline : line ∈ numberedLines text) {column : Nat}
    (hmark : StandsAt (fault.mark?.elim [] (·.toList)) line.text column) :
    (atColumn line.number column fault).IsLocated (lines text) := by
  obtain ⟨i, hraw, hi⟩ := mem_numberedLines_iff.1 hline
  constructor
  case place =>
    rintro place ⟨⟩
    refine ⟨i, line.text, hraw, hi, ?_⟩
    rintro column' ⟨⟩
    exact hmark.mem_columns
  case mark =>
    intro mark hsome
    have hstands : fault.mark? = some mark := hsome
    rw [hstands] at hmark
    exact ⟨i, line.text, column, hraw, by rw [atColumn, hi], hmark⟩

/-! ## The checks -/

/-- What is wrong with the header is located in the text. -/
theorem isLocated_of_mem_headerViolations {suggested : Direction} (h : v ∈ headerViolations suggested (Body.ofText text)) :
    v.IsLocated (lines text) := by
  unfold headerViolations at h
  split at h
  · rw [List.mem_singleton.1 h]
    exact isLocated_nowhere rfl _
  · rename_i line hfirst
    have hnumber : ∃ l ∈ numberedLines text, l.number = line.number :=
      ⟨line, (Body.numbered_ofText text).1 line (List.mem_of_find?_eq_some hfirst), rfl⟩
    repeat' split at h
    all_goals first
      | exact absurd h List.not_mem_nil
      | (rw [List.mem_singleton.1 h]; exact isLocated_atLine hnumber rfl)

/-- The column of a keyword is that of its first place in the line. -/
theorem isLocated_of_mem_forbiddenViolations {forbidden : List String} (h : v ∈ forbiddenViolations forbidden text) :
    v.IsLocated (lines text) := by
  obtain ⟨line, hline, h⟩ := List.mem_flatMap.1 h
  obtain ⟨keyword, hkeyword, h⟩ := List.mem_flatMap.1 h
  have hne : keyword ≠ "" := by simpa using (List.mem_filter.1 hkeyword).2
  unfold keywordViolations at h
  split at h
  · cases h
  · rename_i passed hfind
    have hplace := (Keyword.isFirstPlace_of_find? (String.toList_eq_nil_iff.not.2 hne) hfind).isPlace
    have hstands : StandsAt keyword.toList line.text (passed + 1) := by
      obtain ⟨before, after, hsplit, hlength, -⟩ := hplace
      exact ⟨before, after, hsplit, by rw [hlength]⟩
    rcases List.mem_cons.1 h with rfl | h
    · exact isLocated_atColumn hline hstands
    · split at h
      · rw [List.mem_singleton.1 h]
        exact isLocated_atColumn hline hstands
      · cases h

/-- The column of what is wrong with a statement is counted in its line. -/
theorem isLocated_of_mem_statementViolations {statement : List Char} (hline : line ∈ numberedLines text)
    (hclass : Line.classify line.text = .statement statement)
    (h : v ∈ statementViolations line.number (line.text.takeWhile isBlank).length statement) :
    v.IsLocated (lines text) := by
  unfold statementViolations at h
  split at h
  · rename_i e hparse
    have hshows := Statement.showsIn_of_readFrom hparse (Cursor.isIn_start statement)
    rw [List.mem_singleton.1 h]
    refine isLocated_atColumn hline (Line.standsAt_of_classify hclass ?_)
    rw [mark?_faultOfStatement]
    exact hshows
  · rename_i s hparse
    obtain ⟨hrefs, hampersands⟩ := Statement.standsAt_of_readFrom hparse (Cursor.isIn_start statement)
    rcases List.mem_append.1 h with h | h
    · obtain ⟨ref, href, h⟩ := List.mem_flatMap.1 h
      obtain ⟨fault, hfault, rfl⟩ := List.mem_map.1 h
      refine isLocated_atColumn hline (Line.standsAt_of_classify hclass ?_)
      rw [mark?_of_mem_labelFaults hfault]
      exact hrefs ref href
    · split at h
      · cases h
      · obtain ⟨column, hcolumn, rfl⟩ := List.mem_map.1 h
        have hstands := hampersands column (List.mem_of_mem_filter hcolumn)
        exact isLocated_atColumn hline (Line.standsAt_of_classify hclass hstands)

/-- What is wrong with statements is located in the text. -/
theorem isLocated_of_mem_statementsViolations (h : v ∈ statementsViolations (Body.ofText text)) :
    v.IsLocated (lines text) := by
  obtain ⟨line, hline, h⟩ := List.mem_flatMap.1 h
  split at h
  · rename_i statement hclass
    exact isLocated_of_mem_statementViolations ((Body.numbered_ofText text).1 line hline) hclass h
  · cases h

/-- What is wrong with a group is on its own line or on that of a group that is open. -/
theorem isLocated_of_mem_groupViolations {body : List NumberedLine} {opened : List Nat}
    (hbody : ∀ line ∈ body, line ∈ numberedLines text)
    (hopened : ∀ number ∈ opened, ∃ line ∈ numberedLines text, line.number = number)
    (h : v ∈ groupViolations opened body) : v.IsLocated (lines text) := by
  induction body generalizing opened with
  | nil =>
    obtain ⟨number, hnumber, rfl⟩ := List.mem_map.1 h
    exact isLocated_atLine (hopened number (List.mem_reverse.1 hnumber)) rfl
  | cons line body ih =>
    obtain ⟨hline, hbody⟩ := List.forall_mem_cons.1 hbody
    have hnumber : ∃ l ∈ numberedLines text, l.number = line.number := ⟨line, hline, rfl⟩
    rw [groupViolations] at h
    split at h
    case h_1 =>
      rcases List.mem_append.1 h with h | h
      · exact isLocated_of_mem_ite hnumber rfl h
      · exact ih hbody (List.forall_mem_cons.2 ⟨hnumber, hopened⟩) h
    case h_2 =>
      rcases List.mem_append.1 h with h | h
      · exact isLocated_of_mem_ite hnumber rfl h
      · exact ih hbody (fun number hmem => hopened number (List.mem_of_mem_tail hmem)) h
    case h_3 =>
      rcases List.mem_append.1 h with h | h
      · exact isLocated_of_mem_ite hnumber rfl h
      · exact ih hbody hopened h
    case h_4 => exact ih hbody hopened h

/-- A limit that is passed is located at the start of the text. -/
theorem isLocated_of_mem_sizeViolations {limits : Limits} {doc : Document} (h : v ∈ sizeViolations limits doc)
    (raws : List (List Char)) : v.IsLocated raws := by
  rcases List.mem_append.1 h with h | h
  all_goals
    split at h
    · rw [List.mem_singleton.1 h]
      exact isLocated_nowhere rfl raws
    · cases h

/-- Extra text is located at its line. -/
theorem isLocated_of_mem_extraTextViolations (h : v ∈ extraTextViolations (Body.ofText text)) :
    v.IsLocated (lines text) := by
  obtain ⟨-, hstray, houtside⟩ := Body.numbered_ofText text
  rcases List.mem_append.1 h with h | h
  · obtain ⟨number, hnumber, rfl⟩ := List.mem_map.1 h
    exact isLocated_atLine (hstray number hnumber) rfl
  · split at h
    · cases h
    · rename_i first rest hfirst
      rw [List.mem_singleton.1 h]
      exact isLocated_atLine (houtside first (by rw [hfirst]; exact List.mem_cons_self)) rfl

/-! ## Main statement -/

/-- Whatever the text and the options are, every violation is where it says: its line, if it has one, is a line of the whole
text, and its column one of that line. A forbidden keyword, a bad bracket, the id of the node whose label is at fault and an
`&` without its blanks stand at the column that is given, and the message quotes them. -/
theorem report_located (options : Options) (text : String) :
    ∀ v ∈ (report options text).violations, v.IsLocated (lines text.toList) ∧
      (v.fault.code ∈ markedCodes ∨ v.fault = .crampedAmpersand →
        ∃ mark ∈ v.fault.mark?, ∃ before after, v.fault.message = before ++ Fault.quoted mark ++ after) := by
  intro v h
  constructor
  · simp only [report, violations, List.mem_append] at h
    rcases h with ((((h | h) | h) | h) | h) | h
    · exact isLocated_of_mem_headerViolations h
    · exact isLocated_of_mem_forbiddenViolations h
    · exact isLocated_of_mem_statementsViolations h
    · exact isLocated_of_mem_groupViolations (Body.numbered_ofText _).1 (List.forall_mem_nil _) h
    · cases hlimits : options.limits? with
      | none => simp [hlimits] at h
      | some limits =>
        rw [hlimits] at h
        exact isLocated_of_mem_sizeViolations h _
    · exact isLocated_of_mem_extraTextViolations h
  · intro hmarked
    obtain ⟨mark, hmark⟩ := Option.isSome_iff_exists.1 ((isSome_mark?_iff v.fault).2 hmarked)
    exact ⟨mark, hmark, exists_message_eq hmark⟩

/-- A keyword with characters of more than one byte, a bracket that is not closed and an `&` with too many blanks, each behind
an ideographic space, in a text in a fence. -/
theorem report_located_wide :
    let options : Options := { forbidden := ["größe"] }
    let text := "```\nflowchart TD\n\u3000größe\n\u3000\tb[é  & c\n\u3000a  & b --> c\n```"
    (atColumn 3 2 (.forbidden "größe") ∈ (report options text).violations ∧
      (atColumn 3 2 (.forbidden "größe")).IsLocated (lines text.toList)) ∧
    (atColumn 4 4 (.badBracket "[") ∈ (report options text).violations ∧
      (atColumn 4 4 (.badBracket "[")).IsLocated (lines text.toList)) ∧
    atColumn 5 5 .crampedAmpersand ∈ (report options text).violations ∧
      (atColumn 5 5 .crampedAmpersand).IsLocated (lines text.toList) := by
  intro options text
  have hkeyword : atColumn 3 2 (.forbidden "größe") ∈ (report options text).violations := by decide +kernel
  have hbracket : atColumn 4 4 (.badBracket "[") ∈ (report options text).violations := by decide +kernel
  have hampersand : atColumn 5 5 .crampedAmpersand ∈ (report options text).violations := by decide +kernel
  exact ⟨⟨hkeyword, (report_located options text _ hkeyword).1⟩, ⟨hbracket, (report_located options text _ hbracket).1⟩,
    hampersand, (report_located options text _ hampersand).1⟩

end Lint

end Whiteboard
