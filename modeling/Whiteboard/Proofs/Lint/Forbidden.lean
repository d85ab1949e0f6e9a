import Whiteboard.Proofs.Diagram.Line
import Whiteboard.Proofs.Lint.Classes
import Whiteboard.Proofs.Text.Keyword

/-!
# Forbidden keywords

Main statement: on every line of a text, fences and prose included, the linting objects to a forbidden keyword exactly if it
occurs there, once for each time that the keyword is listed, and at the column of its first place; and a keyword that is put
into a text with a space on either side is objected to on the line that it was put into, whatever stands around it
(`Lint.report_objections`).

The other checks find nothing of that class (`Lint.filter_violations`), so the report says of a keyword what the search for it
finds line by line. What `Keyword.find?` finds is said in terms of places (`Keyword.IsFirstPlace`), and a keyword with a
space on either side has one in its line (`Keyword.isSome_find?_of_standsIn`).
-/

namespace Whiteboard.Lint

open Text

variable {options : Options} {text keyword : String}

/-! ## What the search for keywords finds -/

/-- The violations of the class of forbidden keywords are among those that the search for keywords finds. -/
theorem filter_violations {p : Violation → Bool} (hp : ∀ v, p v = true → v.fault.code = .forbiddenFeature) :
    (violations options text).filter p = (forbiddenViolations options.forbidden text.toList).filter p := by
  have hnone : ∀ {found : List Violation} (codes : List Code), (∀ v ∈ found, v.fault.code ∈ codes) →
      .forbiddenFeature ∉ codes → found.filter p = [] := by
    intro found codes hfound hcodes
    exact List.filter_eq_nil_iff.2 fun v hv htrue => hcodes (hp v htrue ▸ hfound v hv)
  have hsize : ∀ v ∈ options.limits?.elim [] (sizeViolations · (Document.ofLines (Body.ofText text.toList).lines)),
      v.fault.code ∈ [Code.sizeCap] := by
    cases options.limits? with
    | none => nofun
    | some limits => exact fun v => code_of_mem_sizeViolations
  simp only [violations, List.filter_append, hnone _ (fun _ => code_of_mem_headerViolations) (by decide),
    hnone _ (fun _ => code_of_mem_statementsViolations) (by decide),
    hnone _ (fun _ => code_of_mem_groupViolations) (by decide), hnone _ hsize (by decide),
    hnone _ (fun _ => code_of_mem_extraTextViolations) (by decide), List.nil_append, List.append_nil]

/-- Only the search for keywords reports forbidden features. -/
theorem mem_forbiddenViolations_of_code {v : Violation} (h : v ∈ violations options text)
    (hcode : v.fault.code = .forbiddenFeature) : v ∈ forbiddenViolations options.forbidden text.toList := by
  have hfiltered : v ∈ (violations options text).filter (·.fault.code == .forbiddenFeature) :=
    List.mem_filter.2 ⟨h, beq_iff_eq.2 hcode⟩
  rw [filter_violations fun v => beq_iff_eq.1] at hfiltered
  exact List.mem_of_mem_filter hfiltered

/-- A violation of the class of forbidden keywords is found where the search for some keyword ends. -/
theorem exists_of_mem_forbiddenViolations {forbidden : List String} {text : List Char} {v : Violation}
    (h : v ∈ forbiddenViolations forbidden text) (hcode : v.fault.code = .forbiddenFeature) :
    ∃ line ∈ numberedLines text, ∃ keyword ∈ forbidden, keyword ≠ "" ∧ ∃ passed,
      Keyword.find? keyword.toList line.text = some passed ∧
        v = atColumn line.number (passed + 1) (.forbidden keyword) := by
  obtain ⟨line, hline, h⟩ := List.mem_flatMap.1 h
  obtain ⟨keyword, hkeyword, h⟩ := List.mem_flatMap.1 h
  obtain ⟨hmem, hne⟩ := List.mem_filter.1 hkeyword
  refine ⟨line, hline, keyword, hmem, by simpa using hne, ?_⟩
  unfold keywordViolations at h
  split at h
  · cases h
  · rename_i passed hfind
    rcases List.mem_cons.1 h with rfl | h
    · exact ⟨passed, hfind, rfl⟩
    · split at h
      · rw [List.mem_singleton.1 h] at hcode
        cases hcode
      · cases h

/-! ## Objections to one keyword -/

/-- The violation objects to a keyword on the line with the given number. -/
def Violation.objectsTo (v : Violation) (keyword : String) (number : Nat) : Bool :=
  v.fault == .forbidden keyword && v.location?.map (·.line) == some number

/-- The errors of a report that object to a keyword on the line with the given number. -/
def Report.objections (r : Report) (keyword : String) (number : Nat) : List Violation :=
  r.errors.filter (·.objectsTo keyword number)

/-- What objects to a keyword reports that keyword. -/
theorem fault_of_objectsTo {v : Violation} {number : Nat} (h : v.objectsTo keyword number = true) :
    v.fault = .forbidden keyword := by
  rw [Violation.objectsTo, Bool.and_eq_true, beq_iff_eq] at h
  exact h.1

/-- A report of a keyword objects to this keyword on its line. -/
theorem objectsTo_forbidden (line column : Nat) (entry keyword : String) (number : Nat) :
    (atColumn line column (.forbidden entry)).objectsTo keyword number = (decide (entry = keyword) && line == number) := by
  rw [Violation.objectsTo, atColumn]
  congr 1
  rw [Bool.eq_iff_iff, beq_iff_eq, decide_eq_true_eq, Fault.forbidden.injEq]

/-- A report of an entity or Gantt diagram objects to no keyword. -/
theorem objectsTo_entityOrGantt (line column : Nat) (entry keyword : String) (number : Nat) :
    (atColumn line column (.entityOrGantt entry)).objectsTo keyword number = false :=
  rfl

/-- Of what one entry of the list draws on a line, the objections to a keyword. -/
theorem filter_keywordViolations (line : NumberedLine) (entry keyword : String) :
    (keywordViolations line entry).filter (·.objectsTo keyword line.number) =
      if entry = keyword then
        (Keyword.find? keyword.toList line.text).toList.map fun passed =>
          atColumn line.number (passed + 1) (.forbidden keyword)
      else [] := by
  unfold keywordViolations
  by_cases heq : entry = keyword
  · subst heq
    rw [if_pos rfl]
    cases Keyword.find? entry.toList line.text with
    | none => rfl
    | some passed => simp [objectsTo_forbidden, objectsTo_entityOrGantt]
  · rw [if_neg heq]
    cases Keyword.find? entry.toList line.text with
    | none => rfl
    | some passed => simp [objectsTo_forbidden, objectsTo_entityOrGantt, heq]

/-- Another line draws no objections to a keyword on this one. -/
theorem filter_keywordViolations_of_ne {line : NumberedLine} {number : Nat} (h : line.number ≠ number)
    (entry keyword : String) : (keywordViolations line entry).filter (·.objectsTo keyword number) = [] := by
  rw [List.filter_eq_nil_iff]
  intro v hv hobjects
  have hlocation : v.location?.map (·.line) = some line.number := by
    unfold keywordViolations at hv
    split at hv
    · cases hv
    · rcases List.mem_cons.1 hv with rfl | hv
      · rfl
      · split at hv
        · rw [List.mem_singleton.1 hv]
          rfl
        · cases hv
  rw [Violation.objectsTo, Bool.and_eq_true, beq_iff_eq, beq_iff_eq, hlocation, Option.some.injEq] at hobjects
  exact h hobjects.2

/-- Each entry that is a certain keyword contributes the same. -/
theorem flatMap_entries (entries : List String) (keyword : String) (v : Violation) :
    (entries.flatMap fun entry => if entry = keyword then [v] else []) = List.replicate (entries.count keyword) v := by
  induction entries with
  | nil => rfl
  | cons entry entries ih =>
    rw [List.flatMap_cons, ih]
    by_cases heq : entry = keyword
    · rw [if_pos heq, heq, List.count_cons_self]
      rfl
    · rw [if_neg heq, List.count_cons_of_ne heq]
      rfl

/-- The objections to a keyword on a line. -/
theorem objections_eq (options : Options) {line : NumberedLine} (hne : keyword ≠ "")
    (hline : line ∈ numberedLines text.toList) :
    (report options text).objections keyword line.number =
      (Keyword.find? keyword.toList line.text).elim [] fun passed =>
        List.replicate (options.forbidden.count keyword) (atColumn line.number (passed + 1) (.forbidden keyword)) := by
  have hclass : ∀ v : Violation, (v.objectsTo keyword line.number && v.isError) = true →
      v.fault.code = .forbiddenFeature := by
    intro v hv
    rw [fault_of_objectsTo (Bool.and_eq_true_iff.1 hv).1]
    rfl
  have herror : ∀ v : Violation, (v.objectsTo keyword line.number && v.isError) = v.objectsTo keyword line.number := by
    intro v
    rw [Bool.and_eq_left_iff_imp]
    intro hobjects
    rw [Violation.isError, fault_of_objectsTo hobjects]
    rfl
  rw [Report.objections, Report.errors, List.filter_filter, report, filter_violations hclass]
  simp only [herror]
  have hother : ∀ other : NumberedLine, other.number ≠ line.number →
      ((options.forbidden.filter (· != "")).flatMap (keywordViolations other)).filter
        (·.objectsTo keyword line.number) = [] := by
    intro other hnumber
    rw [List.filter_flatMap, List.flatMap_eq_nil_iff]
    exact fun entry _ => filter_keywordViolations_of_ne hnumber entry keyword
  rw [forbiddenViolations, List.filter_flatMap, flatMap_numberedLines hline hother, List.filter_flatMap]
  simp only [filter_keywordViolations]
  cases Keyword.find? keyword.toList line.text with
  | none => simp
  | some passed =>
    rw [Option.toList_some, List.map_singleton, flatMap_entries, List.count_filter (by simpa using hne)]
    rfl

/-! ## Keywords that are put into a text -/

/-- A keyword that is put into a text with a space on either side is found in the line that it is put into. -/
theorem exists_find?_of_inserted {keyword : List Char} (hne : keyword ≠ []) (hbreak : '\n' ∉ keyword)
    (before after : List Char) :
    ∃ line, (lines (before ++ (' ' :: (keyword ++ [' ']) ++ after)))[before.count '\n']? = some line ∧
      ∃ passed, Keyword.find? keyword line = some passed := by
  have hpart : '\n' ∉ ' ' :: (keyword ++ [' ']) := by simpa using hbreak
  have hending : (' ' :: (keyword ++ [' '])).getLast? ≠ some '\r' := by
    rw [← List.cons_append, List.getLast?_concat]
    nofun
  obtain ⟨line, hline, front, back, rfl⟩ := exists_line_of_append (List.cons_ne_nil _ _) hpart hending before after
  have hspace : isWordChar ' ' = false := by decide
  have hstands : StandsIn keyword (front ++ ' ' :: (keyword ++ [' ']) ++ back) := by
    refine ⟨front ++ [' '], ' ' :: back, by simp, endsOpen_concat front hspace, ?_⟩
    rintro c ⟨⟩
    exact hspace
  exact ⟨_, hline, Option.isSome_iff_exists.1 (Keyword.isSome_find?_of_standsIn hne hstands)⟩

/-- Such a keyword is objected to there, and the text is not fine. -/
theorem objections_of_inserted (options : Options) (hne : keyword ≠ "") (hmem : keyword ∈ options.forbidden)
    (hbreak : '\n' ∉ keyword.toList) (before after : String) :
    let inserted := report options (before ++ " " ++ keyword ++ " " ++ after)
    inserted.isOk = false ∧ inserted.objections keyword (before.toList.count '\n' + 1) ≠ [] := by
  intro inserted
  have hchars := String.toList_eq_nil_iff.not.2 hne
  obtain ⟨line, hline, passed, hfind⟩ := exists_find?_of_inserted hchars hbreak before.toList after.toList
  have htext : (before ++ " " ++ keyword ++ " " ++ after).toList =
      before.toList ++ (' ' :: (keyword.toList ++ [' ']) ++ after.toList) := by
    simp [String.toList_append]
  have hnumbered : (⟨before.toList.count '\n' + 1, line⟩ : NumberedLine) ∈
      numberedLines (before ++ " " ++ keyword ++ " " ++ after).toList :=
    mem_numberedLines_iff.2 ⟨_, htext ▸ hline, rfl⟩
  have hsome : inserted.objections keyword (before.toList.count '\n' + 1) ≠ [] := by
    rw [objections_eq options hne hnumbered, hfind, Option.elim_some, Ne, List.replicate_eq_nil_iff]
    exact (List.count_pos_iff.2 hmem).ne'
  refine ⟨?_, hsome⟩
  obtain ⟨v, hv⟩ := List.exists_mem_of_ne_nil _ hsome
  obtain ⟨hviolation, herror⟩ := List.mem_filter.1 (List.mem_of_mem_filter hv)
  rw [Report.isOk, Bool.not_eq_false', List.any_eq_true]
  exact ⟨v, hviolation, herror⟩

/-! ## Main statement -/

/-- For every keyword that is not empty: where it occurs in a line of a text, the linting objects to it as often as it is
listed, each time at the column of its first place there, which is counted in characters, and on a line where it does not
occur the linting does not object to it. Every violation of that class is such an objection to a keyword of the list. A
keyword that is listed and breaks no line is objected to wherever it is put into the text with a space on either side, on the
line that it is put into, and the text is not fine. -/
theorem report_objections (options : Options) (text : String) {keyword : String} (hne : keyword ≠ "") :
    (∀ i line, (lines text.toList)[i]? = some line →
      (∀ passed, Keyword.IsFirstPlace keyword.toList line passed →
        (report options text).objections keyword (i + 1) =
          List.replicate (options.forbidden.count keyword) (atColumn (i + 1) (passed + 1) (.forbidden keyword))) ∧
      ((∀ passed, ¬ Keyword.IsPlace keyword.toList line passed) →
        (report options text).objections keyword (i + 1) = [])) ∧
    (∀ v ∈ (report options text).violations, v.fault.code = .forbiddenFeature →
      ∃ entry ∈ options.forbidden, entry ≠ "" ∧ ∃ i line passed, (lines text.toList)[i]? = some line ∧
        Keyword.IsFirstPlace entry.toList line passed ∧ v = atColumn (i + 1) (passed + 1) (.forbidden entry)) ∧
    (keyword ∈ options.forbidden → '\n' ∉ keyword.toList → ∀ before after, text = before ++ after →
      let inserted := report options (before ++ " " ++ keyword ++ " " ++ after)
      inserted.isOk = false ∧ inserted.objections keyword (before.toList.count '\n' + 1) ≠ []) := by
  have hchars := String.toList_eq_nil_iff.not.2 hne
  refine ⟨fun i line hline => ?_, fun v hv hcode => ?_, fun hmem hbreak before after _ =>
    objections_of_inserted options hne hmem hbreak before after⟩
  · have hnumbered : (⟨i + 1, line⟩ : NumberedLine) ∈ numberedLines text.toList :=
      mem_numberedLines_iff.2 ⟨i, hline, rfl⟩
    have hobjections := objections_eq options hne hnumbered
    refine ⟨fun passed hplace => ?_, fun hnone => ?_⟩
    · rw [hobjections, hplace.find?_eq hchars]
      rfl
    · rw [hobjections, (Keyword.find?_eq_none_iff hchars).2 hnone]
      rfl
  · have hforbidden := mem_forbiddenViolations_of_code hv hcode
    obtain ⟨⟨number, line⟩, hline, entry, hentry, hentryNe, passed, hfind, rfl⟩ :=
      exists_of_mem_forbiddenViolations hforbidden hcode
    obtain ⟨i, hi, rfl⟩ := mem_numberedLines_iff.1 hline
    have hplace := Keyword.isFirstPlace_of_find? (String.toList_eq_nil_iff.not.2 hentryNe) hfind
    exact ⟨entry, hentry, hentryNe, i, line, passed, hi, hplace, rfl⟩

/-- A keyword that is listed twice occurs in one line of a text, behind a character of two bytes, and is only the start of a
word in the other. -/
theorem report_objections_listed_twice :
    let options : Options := { forbidden := ["style", ":::", "style"] }
    let text := "é style\nstylesheet"
    (report options text).objections "style" 1 = List.replicate 2 (atColumn 1 3 (.forbidden "style")) ∧
      (report options text).objections "style" 2 = [] ∧
      (report options ("é style\nst" ++ " " ++ "style" ++ " " ++ "ylesheet")).isOk = false ∧
      (report options ("é style\nst" ++ " " ++ "style" ++ " " ++ "ylesheet")).objections "style" 2 ≠ [] := by
  intro options text
  have hne : "style".toList ≠ [] := by decide
  obtain ⟨hlines, -, hinserted⟩ := report_objections options text (show "style" ≠ "" by decide)
  have hfirst := (hlines 0 "é style".toList (by decide +kernel)).1 2 (Keyword.isFirstPlace_of_find? hne (by decide +kernel))
  have hsecond := (hlines 1 "stylesheet".toList (by decide +kernel)).2
    ((Keyword.find?_eq_none_iff hne).1 (by decide +kernel))
  exact ⟨hfirst, hsecond, hinserted (by decide) (by decide) "é style\nst" "ylesheet" (by decide +kernel)⟩

end Whiteboard.Lint
