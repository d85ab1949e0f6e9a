import Whiteboard.Proofs.Lint.Numbering
import Whiteboard.Proofs.Text.Keyword
import Whiteboard.Proofs.Validation.Agreement

/-!
# Texts between fences

Main statement: what is read from a text between two fences, whether it belongs to the grammar, and what the linting objects to
are the same as without the fences, one line further down; and with anything else outside of the two fences, or with a third
one, a text neither belongs to the grammar nor passes the linting (`fenced_agrees`).

Between fences a text has the same body under other numbers (`Body.ofText_fenced`). Every reader of a body, whether it reads the
document, checks the grammar or lints, passes numbers on and does not look at them. The search for keywords reads the
whole text instead, and so it has to find nothing in the fences themselves.
-/

namespace Whiteboard

open Text

/-- A line is a fence: it begins with three backticks, blanks aside. -/
def Line.IsFence (raw : List Char) : Prop := fenceMark <+: trimStart raw

instance : DecidablePred Line.IsFence := fun raw => inferInstanceAs (Decidable (Line.fenceMark <+: trimStart raw))

/-- A line is taken for a fence exactly if it is one. -/
theorem NumberedLine.isFence_iff {line : NumberedLine} : line.isFence = true ↔ Line.IsFence line.text :=
  List.isPrefixOf_iff_prefix

/-- A fence is not blank. -/
theorem Line.IsFence.trim_ne_nil {raw : List Char} (h : IsFence raw) : trim raw ≠ [] := by
  obtain ⟨rest, hrest⟩ := h
  have hmem : '\x60' ∈ trimStart raw := by
    rw [← hrest]
    exact List.mem_append_left _ (by decide)
  refine List.ne_nil_of_mem (mem_trim ?_ (by decide : isBlank '\x60' = false))
  exact (List.dropWhile_suffix _).subset hmem

/-! ## The body of a text between fences -/

section

variable {text : List Char} {opening closing : List Char}

/-- The text with a terminator behind its last line. -/
def endLastLine (text : List Char) : List Char := if text.getLast?.all (· == '\n') then text else text ++ ['\r', '\n']

/-- Every text stands between two lines that are written before and behind it. -/
theorem lines_between (hopening : '\n' ∉ opening ∧ opening.getLast? ≠ some '\r')
    (hclosing : closing ≠ [] ∧ '\n' ∉ closing) (text : List Char) :
    lines (opening ++ '\n' :: (endLastLine text ++ closing)) = opening :: (lines text ++ [closing]) := by
  have htext : lines (endLastLine text) = lines text ∧ ∀ c ∈ (endLastLine text).getLast?, c = '\n' := by
    unfold endLastLine
    split
    · rename_i hended
      exact ⟨rfl, by simpa [Option.all_eq_true] using hended⟩
    · rename_i hopen
      refine ⟨lines_append_return ?_ ?_, by simp⟩
      · rintro rfl
        exact hopen rfl
      · intro hlast
        exact hopen (by rw [hlast]; rfl)
  rw [lines_append_newline _ hopening.1 hopening.2, lines_append_of_ended htext.2, htext.1,
    lines_eq_singleton hclosing.1 hclosing.2]

/-- Lines are counted from one. -/
theorem number_of_mem_numberedLines {line : NumberedLine} (h : line ∈ numberedLines text) :
    0 < line.number ∧ line.number ≤ (numberedLines text).length := by
  obtain ⟨i, hi, hnumber⟩ := mem_numberedLines_iff.1 h
  have hlt := (List.getElem?_eq_some_iff.1 hi).1
  rw [numberedLines, List.length_mapIdx]
  omega

/-- Where no line of a text is a fence, none of the numbered lines is. -/
theorem isFence_of_mem_numberedLines (htext : ∀ raw ∈ lines text, ¬ Line.IsFence raw) :
    ∀ line ∈ numberedLines text, line.isFence = false := by
  intro line hline
  obtain ⟨i, hi, -⟩ := mem_numberedLines_iff.1 hline
  exact Bool.eq_false_iff.2 (mt NumberedLine.isFence_iff.1 (htext _ (List.mem_of_getElem? hi)))

/-- The lines of a text between two lines. -/
theorem numberedLines_fenced {fenced : List Char} (h : lines fenced = opening :: (lines text ++ [closing])) :
    numberedLines fenced =
      ⟨1, opening⟩ :: ((numberedLines text).map (·.renumbered (· + 1)) ++ [⟨(numberedLines text).length + 2, closing⟩]) := by
  have hshifted : (numberedLines text).map (·.renumbered (· + 1)) = (lines text).mapIdx fun i line => ⟨i + 1 + 1, line⟩ := by
    rw [numberedLines, List.mapIdx_eq_zipIdx_map, List.mapIdx_eq_zipIdx_map, List.map_map]
    rfl
  have hlength : (numberedLines text).length = (lines text).length := List.length_mapIdx
  rw [numberedLines, h, List.mapIdx_cons, List.mapIdx_append, hshifted, hlength, List.mapIdx_cons, List.mapIdx_nil,
    Nat.zero_add, Nat.zero_add]

/-- The body of a text that begins with a fence, ends with one and has no other. -/
theorem Body.ofText_of_enclosed {fenced : List Char} {first last : NumberedLine} {inner : List NumberedLine}
    (hall : numberedLines fenced = first :: (inner ++ [last])) (hfirst : first.isFence = true) (hlast : last.isFence = true)
    (hinner : ∀ line ∈ inner, line.isFence = false) : ofText fenced = ⟨inner, [], []⟩ := by
  have hordered := pairwise_numberedLines fenced
  rw [hall, List.pairwise_cons, List.forall_mem_append, List.forall_mem_singleton, List.pairwise_append] at hordered
  obtain ⟨⟨hbehind, hlt⟩, -, -, hbefore⟩ := hordered
  have hfences : (first :: (inner ++ [last])).filter (·.isFence) = [first, last] := by
    have hnone : inner.filter (·.isFence) = [] := List.filter_eq_nil_iff.2 fun line hline => by simp [hinner line hline]
    rw [List.filter_cons_of_pos hfirst, List.filter_append, hnone, List.filter_singleton, hlast]
    rfl
  have hlines : (first :: (inner ++ [last])).filter (fun l => first.number < l.number && l.number < last.number) = inner := by
    have hkept : inner.filter (fun l => first.number < l.number && l.number < last.number) = inner :=
      List.filter_eq_self.2 fun line hline => by simp [hbehind line hline, hbefore line hline last (List.mem_singleton_self _)]
    simp [hkept]
  have houtside : (first :: (inner ++ [last])).filter
      (fun l => (l.number < first.number || last.number < l.number) && !l.isBlank) = [] := by
    rw [List.filter_eq_nil_iff, List.forall_mem_cons, List.forall_mem_append, List.forall_mem_singleton]
    have hwithin : ∀ l : NumberedLine, first.number ≤ l.number → l.number ≤ last.number →
        ¬ ((l.number < first.number || last.number < l.number) && !l.isBlank) = true := by
      intro l hl hl'
      simp [Nat.not_lt.2 hl, Nat.not_lt.2 hl']
    refine ⟨hwithin first le_rfl hlt.le, fun line hline => ?_, hwithin last hlt.le le_rfl⟩
    exact hwithin line (hbehind line hline).le (hbefore line hline last (List.mem_singleton_self _)).le
  unfold ofText
  simp only [hall, hfences, List.map_cons, List.map_nil, hlines, houtside]

/-- Between two fences a text without fences has the same body, one line further down. -/
theorem Body.ofText_fenced {fenced : List Char} (hopening : Line.IsFence opening) (hclosing : Line.IsFence closing)
    (htext : ∀ raw ∈ Text.lines text, ¬ Line.IsFence raw)
    (h : Text.lines fenced = opening :: (Text.lines text ++ [closing])) :
    ofText fenced = (ofText text).renumbered (· + 1) := by
  have hunfenced := isFence_of_mem_numberedLines htext
  have hinner : ∀ line ∈ (numberedLines text).map (·.renumbered (· + 1)), line.isFence = false := by
    intro line hline
    obtain ⟨old, hold, rfl⟩ := List.mem_map.1 hline
    exact hunfenced old hold
  rw [ofText_of_enclosed (numberedLines_fenced h) (NumberedLine.isFence_iff.2 hopening) (NumberedLine.isFence_iff.2 hclosing)
    hinner, ofText_of_unfenced hunfenced]
  rfl

/-- A line in a part of a text has a number in that part. -/
theorem exists_numberedLine {front part back : List (List Char)} (h : lines text = front ++ (part ++ back)) {raw : List Char}
    (hraw : raw ∈ part) : ∃ line ∈ numberedLines text,
      line.text = raw ∧ front.length < line.number ∧ line.number ≤ front.length + part.length := by
  obtain ⟨i, hi⟩ := List.mem_iff_getElem?.1 hraw
  have hlt := (List.getElem?_eq_some_iff.1 hi).1
  refine ⟨⟨front.length + i + 1, raw⟩, mem_numberedLines_iff.2 ⟨front.length + i, ?_, rfl⟩, rfl, ?_⟩
  · rw [h, List.getElem?_append_right (Nat.le_add_right _ _), Nat.add_sub_cancel_left, List.getElem?_append_left hlt, hi]
  · simp only
    omega

/-- With a third fence some fences are stray, and with two of them, which are then the given ones, every line before or behind
them counts. -/
theorem Body.ofText_crowded {before inside after : List (List Char)}
    (hopening : Line.IsFence opening) (hclosing : Line.IsFence closing)
    (h : Text.lines text = before ++ opening :: (inside ++ closing :: after))
    (hextra : (∃ raw ∈ before ++ after, trim raw ≠ []) ∨ ∃ raw ∈ inside, Line.IsFence raw) :
    (ofText text).strayFences ≠ [] ∨ (ofText text).outside ≠ [] := by
  have atBefore : Text.lines text = [] ++ (before ++ opening :: (inside ++ closing :: after)) := h
  have atOpening : Text.lines text = before ++ ([opening] ++ (inside ++ closing :: after)) := h
  have atInside : Text.lines text = (before ++ [opening]) ++ (inside ++ closing :: after) := by simp [h]
  have atClosing : Text.lines text = (before ++ opening :: inside) ++ ([closing] ++ after) := by simp [h]
  have atAfter : Text.lines text = (before ++ opening :: (inside ++ [closing])) ++ (after ++ []) := by simp [h]
  obtain ⟨first, hfirst, rfl, hfirstNumber⟩ := exists_numberedLine atOpening (List.mem_singleton_self _)
  obtain ⟨last, hlast, rfl, hlastNumber⟩ := exists_numberedLine atClosing (List.mem_singleton_self _)
  simp only [List.length_append, List.length_cons, List.length_nil] at hfirstNumber hlastNumber
  have hfences : ∀ {line}, line ∈ numberedLines text → Line.IsFence line.text →
      line.number ∈ ((numberedLines text).filter (·.isFence)).map (·.number) := fun hline hfence =>
    List.mem_map.2 ⟨_, List.mem_filter.2 ⟨hline, NumberedLine.isFence_iff.2 hfence⟩, rfl⟩
  have hordered : (((numberedLines text).filter (·.isFence)).map (·.number)).Pairwise (· < ·) :=
    List.pairwise_map.2 ((pairwise_numberedLines text).filter _)
  unfold ofText
  simp only
  split
  · rename_i hnone
    have hmem := hfences hfirst hopening
    rw [hnone] at hmem
    cases hmem
  · rename_i p q htwo
    rw [htwo] at hfences hordered
    have hp := hfences hfirst hopening
    have hq := hfences hlast hclosing
    simp only [List.mem_cons, List.not_mem_nil, or_false, List.pairwise_cons, forall_eq] at hp hq hordered
    have houtside : ∀ {line}, line ∈ numberedLines text → trim line.text ≠ [] → line.number < p ∨ q < line.number →
        ((numberedLines text).filter fun l => (l.number < p || q < l.number) && !l.isBlank).map (·.number) ≠ [] := by
      intro line hline hblank hplace
      have hkept : ((line.number < p || q < line.number) && !line.isBlank) = true := by
        simpa [NumberedLine.isBlank, hblank] using hplace
      exact List.ne_nil_of_mem (List.mem_map.2 ⟨line, List.mem_filter.2 ⟨hline, hkept⟩, rfl⟩)
    rcases hextra with ⟨raw, hraw, hblank⟩ | ⟨raw, hraw, hfence⟩
    · right
      rcases List.mem_append.1 hraw with hbefore | hafter
      · obtain ⟨line, hline, rfl, hnumber⟩ := exists_numberedLine atBefore hbefore
        rw [List.length_nil] at hnumber
        exact houtside hline hblank (.inl (by omega))
      · obtain ⟨line, hline, rfl, hnumber⟩ := exists_numberedLine atAfter hafter
        simp only [List.length_append, List.length_cons, List.length_nil] at hnumber
        exact houtside hline hblank (.inr (by omega))
    · obtain ⟨line, hline, rfl, hnumber⟩ := exists_numberedLine atInside hraw
      simp only [List.length_append, List.length_cons, List.length_nil] at hnumber
      have hmem := hfences hline hfence
      simp only [List.mem_cons, List.not_mem_nil, or_false] at hmem
      omega
  · left
    exact List.ne_nil_of_mem (hfences hfirst hopening)

end

/-! ## Linting a text between fences -/

namespace Lint

/-- No forbidden keyword has a place in a line. -/
def Options.AllowsLine (options : Options) (raw : List Char) : Prop :=
  ∀ keyword ∈ options.forbidden, keyword ≠ "" → ∀ passed, ¬ Keyword.IsPlace keyword.toList raw passed

/-- A line is allowed exactly if no forbidden keyword is found in it. -/
theorem Options.allowsLine_iff {options : Options} {raw : List Char} :
    options.AllowsLine raw ↔ ∀ keyword ∈ options.forbidden, keyword ≠ "" → Keyword.find? keyword.toList raw = none := by
  refine forall_congr' fun keyword => forall_congr' fun _ => forall_congr' fun hne => ?_
  rw [Keyword.find?_eq_none_iff (mt String.toList_eq_nil_iff.1 hne)]

/-- Such a line draws no violation. -/
theorem Options.AllowsLine.keywordViolations_eq_nil {options : Options} {line : NumberedLine}
    (h : options.AllowsLine line.text) :
    (options.forbidden.filter (· != "")).flatMap (keywordViolations line) = [] := by
  rw [List.flatMap_eq_nil_iff]
  intro keyword hkeyword
  obtain ⟨hmem, hne⟩ := List.mem_filter.1 hkeyword
  rw [keywordViolations, allowsLine_iff.1 h keyword hmem (bne_iff_ne.1 hne)]

/-- The search for keywords finds in a text between two lines what it finds in the text, if it finds nothing in the two. -/
theorem forbiddenViolations_fenced {options : Options} {text fenced opening closing : List Char}
    (hopening : options.AllowsLine opening) (hclosing : options.AllowsLine closing)
    (h : Text.lines fenced = opening :: (Text.lines text ++ [closing])) :
    forbiddenViolations options.forbidden fenced =
      (forbiddenViolations options.forbidden text).map (·.renumbered (· + 1)) := by
  have hline : ∀ line : NumberedLine, keywordViolations (line.renumbered (· + 1)) =
      fun keyword => (keywordViolations line keyword).map (·.renumbered (· + 1)) :=
    fun line => funext (keywordViolations_renumbered _ line)
  unfold forbiddenViolations
  rw [numberedLines_fenced h, List.flatMap_cons, List.flatMap_append, List.flatMap_singleton,
    Options.AllowsLine.keywordViolations_eq_nil hopening, Options.AllowsLine.keywordViolations_eq_nil hclosing,
    List.nil_append, List.append_nil, List.flatMap_map, List.map_flatMap]
  simp only [hline, List.map_flatMap]

/-- A text between two fences draws the same violations, one line further down. -/
theorem violations_fenced {options : Options} {text fenced : String} {opening closing : List Char}
    (hopening : options.AllowsLine opening) (hclosing : options.AllowsLine closing)
    (h : Text.lines fenced.toList = opening :: (Text.lines text.toList ++ [closing]))
    (hbody : Body.ofText fenced.toList = (Body.ofText text.toList).renumbered (· + 1)) :
    violations options fenced = (violations options text).map (·.renumbered (· + 1)) := by
  have hsize : ∀ lines : List NumberedLine,
      options.limits?.elim [] (sizeViolations · (Document.ofLines (lines.map (·.renumbered (· + 1))))) =
        (options.limits?.elim [] (sizeViolations · (Document.ofLines lines))).map (·.renumbered (· + 1)) := by
    intro lines
    cases options.limits? with
    | none => rfl
    | some limits => exact Document.ofLines_renumbered _ lines ▸ sizeViolations_renumbered _ limits _
  have hgroups := groupViolations_renumbered (· + 1) [] (Body.ofText text.toList).lines
  unfold violations
  simp only [hbody, headerViolations_renumbered, forbiddenViolations_fenced hopening hclosing h,
    statementsViolations_renumbered, extraTextViolations_renumbered, List.map_append, ← hsize, ← hgroups]
  rfl

end Lint

/-! ## Main statement -/

/-- The first text says what the second one says, one line further down. Only the error that an empty text has no header stays
where it is, on line 1. -/
structure Restates (fenced text : String) (opening closing : List Char) : Prop where
  parse : Document.parse fenced = (Document.parse text).renumbered (· + 1)
  verdict : checkSyntax fenced =
    (checkSyntax text).mapError (·.renumbered fun line => if text = "" then line else line + 1)
  violations : ∀ options : Lint.Options, options.AllowsLine opening → options.AllowsLine closing →
    (Lint.report options fenced).violations = (Lint.report options text).violations.map (·.renumbered (· + 1))

variable {text : String} {opening closing : List Char}

/-- Between two fences a text belongs to the grammar if it does without them, and otherwise has the same fault. -/
theorem checkSyntax_fenced {fenced : String} (htext : ∀ raw ∈ lines text.toList, ¬ Line.IsFence raw)
    (hbody : Body.ofText fenced.toList = (Body.ofText text.toList).renumbered (· + 1)) :
    checkSyntax fenced = (checkSyntax text).mapError (·.renumbered fun line => if text = "" then line else line + 1) := by
  have hunfenced := Body.ofText_of_unfenced (isFence_of_mem_numberedLines htext)
  have hrun : checkSyntax text = Progress.beforeHeader.run 0 (numberedLines text.toList) := by
    simp only [checkSyntax, hunfenced]
    rfl
  have hrun' : checkSyntax fenced =
      Progress.beforeHeader.run 0 ((numberedLines text.toList).map (·.renumbered (· + 1))) := by
    simp only [checkSyntax, hbody, hunfenced]
    rfl
  rw [hrun, hrun']
  by_cases hempty : text = ""
  · subst hempty
    rfl
  · simp only [hempty, if_false]
    refine Progress.run_renumbered (fun n _ => Nat.succ_pos n) _ (fun _ hline => (number_of_mem_numberedLines hline).1) ?_
    intro hnone
    have hnil := lines_eq_nil_iff.1 (List.mapIdx_eq_nil_iff.1 hnone)
    exact absurd (String.toList_eq_nil_iff.1 hnil) hempty

/-- A text between two fences restates the text. -/
theorem restates_of_fenced {fenced : String} (hopening : Line.IsFence opening) (hclosing : Line.IsFence closing)
    (htext : ∀ raw ∈ lines text.toList, ¬ Line.IsFence raw)
    (h : lines fenced.toList = opening :: (lines text.toList ++ [closing])) : Restates fenced text opening closing := by
  have hbody := Body.ofText_fenced hopening hclosing htext h
  constructor
  case parse =>
    rw [Document.parse, hbody]
    exact Document.ofLines_renumbered _ _
  case verdict => exact checkSyntax_fenced htext hbody
  case violations =>
    intro options hallowsOpening hallowsClosing
    exact Lint.violations_fenced hallowsOpening hallowsClosing h hbody

/-- A text with stray fences, or with lines outside of the fences, does not belong to the grammar and does not pass the linting. -/
theorem rejected_of_extra {crowded : String}
    (h : (Body.ofText crowded.toList).strayFences ≠ [] ∨ (Body.ofText crowded.toList).outside ≠ []) :
    (∃ line, checkSyntax crowded = .error ⟨line, .outsideFence⟩) ∧
      ∀ options, (Lint.report options crowded).isOk = false := by
  have hextra : (Body.ofText crowded.toList).strayFences.head?.or (Body.ofText crowded.toList).outside.head? ≠ none := by
    rw [Ne, Option.or_eq_none_iff, List.head?_eq_none_iff, List.head?_eq_none_iff]
    tauto
  obtain ⟨line, hline⟩ := Option.ne_none_iff_exists'.1 hextra
  refine ⟨⟨line, ?_⟩, ?_⟩
  · simp only [checkSyntax, hline]
  · intro options
    by_contra hok
    exact hextra (Lint.extraTextViolations_eq_nil_iff.1 (Lint.of_isOk (Bool.not_eq_false _ ▸ hok)).2.2.1)

/-- Two fences around a text change nothing but line numbers, and they are the only ones that there may be. Between two fences a
text without fences reads as the same document, belongs to the grammar or has the same fault, and draws the same violations if
no forbidden keyword occurs in the fences, all one line further down. A text with two fences and a line before or behind them
that is not blank, or with a third fence, does not belong to the grammar and does not pass the linting. -/
theorem fenced_agrees (text : String) (hopening : Line.IsFence opening) (hclosing : Line.IsFence closing)
    (htext : ∀ raw ∈ lines text.toList, ¬ Line.IsFence raw) :
    (∀ fenced : String, lines fenced.toList = opening :: (lines text.toList ++ [closing]) →
      Restates fenced text opening closing) ∧
    ∀ (crowded : String) (before inside after : List (List Char)),
      lines crowded.toList = before ++ opening :: (inside ++ closing :: after) →
      ((∃ raw ∈ before ++ after, trim raw ≠ []) ∨ ∃ raw ∈ before ++ after ++ inside, Line.IsFence raw) →
      (∃ line, checkSyntax crowded = .error ⟨line, .outsideFence⟩) ∧
        ∀ options, (Lint.report options crowded).isOk = false := by
  refine ⟨fun fenced h => restates_of_fenced hopening hclosing htext h, ?_⟩
  intro crowded before inside after h hextra
  refine rejected_of_extra (Body.ofText_crowded hopening hclosing h ?_)
  rcases hextra with hextra | ⟨raw, hraw, hfence⟩
  · exact .inl hextra
  · rcases List.mem_append.1 hraw with houtside | hinside
    · exact .inl ⟨raw, houtside, hfence.trim_ne_nil⟩
    · exact .inr ⟨raw, hinside, hfence⟩

/-- A text with an `&` to object to, the same text between fences, and that one with a line of prose before it. -/
theorem fenced_agrees_introduced :
    let opening := "```mermaid".toList
    let closing := "```".toList
    let text := "flowchart TD\n    a &b --> c\n"
    let fenced := "```mermaid\nflowchart TD\n    a &b --> c\n```"
    let crowded := "Here it is:\n```mermaid\nflowchart TD\n    a &b --> c\n```"
    Line.IsFence opening ∧ Line.IsFence closing ∧ (∀ raw ∈ lines text.toList, ¬ Line.IsFence raw) ∧
    lines fenced.toList = opening :: (lines text.toList ++ [closing]) ∧ Restates fenced text opening closing ∧
    ({} : Lint.Options).AllowsLine opening ∧ ({} : Lint.Options).AllowsLine closing ∧
    (Lint.report {} fenced).violations = [Lint.atColumn 3 7 .crampedAmpersand] ∧
    lines crowded.toList = ["Here it is:".toList] ++ opening :: (lines text.toList ++ closing :: []) ∧
    (∃ line, checkSyntax crowded = .error ⟨line, .outsideFence⟩) ∧ (Lint.report {} crowded).isOk = false := by
  intro opening closing text fenced crowded
  have hopening : Line.IsFence opening := by decide +kernel
  have hclosing : Line.IsFence closing := by decide +kernel
  have htext : ∀ raw ∈ lines text.toList, ¬ Line.IsFence raw := by decide +kernel
  have hwritten : fenced.toList = opening ++ '\n' :: (endLastLine text.toList ++ closing) := by decide +kernel
  have hfenced : lines fenced.toList = opening :: (lines text.toList ++ [closing]) := by
    rw [hwritten]
    exact lines_between (by decide +kernel) (by decide +kernel) _
  have hcrowded : lines crowded.toList = ["Here it is:".toList] ++ opening :: (lines text.toList ++ closing :: []) := by
    decide +kernel
  have hallows : ({} : Lint.Options).AllowsLine opening ∧ ({} : Lint.Options).AllowsLine closing := by
    rw [Lint.Options.allowsLine_iff, Lint.Options.allowsLine_iff]
    decide +kernel
  obtain ⟨hrestates, hrejects⟩ := fenced_agrees text hopening hclosing htext
  have h := hrestates fenced hfenced
  have hviolations : (Lint.report {} text).violations = [Lint.atColumn 2 7 .crampedAmpersand] := by decide +kernel
  have hrejected := hrejects crowded _ _ _ hcrowded (.inl ⟨_, List.mem_append_left _ (List.mem_singleton_self _), by decide +kernel⟩)
  exact ⟨hopening, hclosing, htext, hfenced, h, hallows.1, hallows.2,
    (h.violations {} hallows.1 hallows.2).trans (by rw [hviolations]; rfl), hcrowded, hrejected.1, hrejected.2 {}⟩

end Whiteboard
