import Whiteboard.Proofs.Diagram.Content
import Whiteboard.Proofs.Validation.Agreement
import Whiteboard.Proofs.Validation.Coherence

/-!
# Nothing is skipped

The reader of documents passes over whatever it does not recognize. Main statement: in a text that belongs to the strict
grammar there is no such thing (`Document.lossless_of_checkSyntax`). The direction of the document is the one that its
header names, every line behind the header is one that the reader acts on or may ignore, statements are read and their
arrows are those of edges, every group, edge and node that a line speaks of is in the document, and every closing line
closes a group.

The grammar counts open groups where the reader keeps them, and the two agree at every line (`length_groupsAround`). What the
document holds follows from the lines that it reflects (`Document.Reading.Reflects`).
-/

namespace Whiteboard

open Text

/-- The kinds of lines that a text of the grammar has behind its header. -/
def Line.IsBodyKind : Line → Prop
  | .blank | .comment | .groupOpen _ | .groupClose | .direction _ | .statement _ => True
  | .fence | .header _ _ | .directive _ => False

/-- A document that keeps all that its lines say: some blank lines, a header and the rest. -/
structure Document.IsLossless (doc : Document) (blanks : List NumberedLine) (header : NumberedLine)
    (rest : List NumberedLine) : Prop where
  blank : ∀ line ∈ blanks, Line.classify line.text = .blank
  /-- The direction is that of the first line that is not blank. -/
  direction : ∃ keyword token direction, Line.classify header.text = .header keyword (some token) ∧
    Line.isFlowchartKeyword keyword = true ∧ Direction.ofToken? token = some direction ∧ doc.direction? = some direction
  kind : ∀ line ∈ rest, (Line.classify line.text).IsBodyKind
  /-- A line that looks like a statement reads as one, and its links are solid or dashed. -/
  statement : ∀ line ∈ rest, ∀ text, Line.classify line.text = .statement text →
    ∃ s, line.statement? = some s ∧ ∀ link ∈ s.links, link.arrow = .solid ∨ link.arrow = .dashed
  /-- A line that closes a group stands where one is open. -/
  closes : ∀ before line after, rest = before ++ line :: after → Line.classify line.text = .groupClose →
    groupsAround (blanks ++ header :: before) ≠ []
  groups : doc.groups = rest.filterMap (·.group?)
  edges : doc.edges = rest.flatMap (·.edges)
  nodes : ∀ line ∈ rest, ∀ ref ∈ line.refs, ref.id ∈ doc.nodeIds

/-! ## Open groups -/

/-- A line changes the number of open groups as the grammar says. -/
theorem NumberedLine.length_enclose (line : NumberedLine) (around : List String) :
    (line.enclose around).length = openAfter around.length (Line.classify line.text) := by
  rw [enclose]
  cases Line.classify line.text with
  | groupClose => exact List.length_tail
  | _ => rfl

/-- As many groups are open as are counted. -/
theorem length_groupsAround (lines : List NumberedLine) : (groupsAround lines).length = openGroups 0 lines := by
  induction lines using List.reverseRecOn with
  | nil => rfl
  | append_singleton lines line ih =>
    rw [groupsAround_concat, NumberedLine.length_enclose, ih, openGroups, openGroups, List.foldl_append, List.foldl_cons,
      List.foldl_nil]

/-! ## Lines of other kinds -/

namespace NumberedLine

/-- Only a statement is read as one. -/
theorem statement?_eq_none {line : NumberedLine} (h : ∀ text, Line.classify line.text ≠ .statement text) :
    line.statement? = none := by
  rw [statement?]
  split
  · rename_i text hclass
    exact absurd hclass (h text)
  · rfl

/-- Only a statement has edges. -/
theorem edges_eq_nil {line : NumberedLine} (h : ∀ text, Line.classify line.text ≠ .statement text) : line.edges = [] := by
  rw [edges, statement?_eq_none h]
  rfl

/-- Only a line that opens a group gives one. -/
theorem group?_eq_none {line : NumberedLine} (h : ∀ title, Line.classify line.text ≠ .groupOpen title) :
    line.group? = none := by
  rw [group?]
  split
  · rename_i title hclass
    exact absurd hclass (h title)
  · rfl

end NumberedLine

namespace IsHeaded

variable {lines blanks rest : List NumberedLine} {header : NumberedLine}

theorem edges_eq (h : IsHeaded lines blanks header rest) : lines.flatMap (·.edges) = rest.flatMap (·.edges) := by
  obtain ⟨rfl, hblank, keyword, token, hclass, -⟩ := h
  have hblanks : blanks.flatMap (·.edges) = [] :=
    List.flatMap_eq_nil_iff.2 fun line hline => NumberedLine.edges_eq_nil (by simp [hblank line hline])
  have hheader : header.edges = [] := NumberedLine.edges_eq_nil (by simp [hclass])
  rw [List.flatMap_append, List.flatMap_cons, hblanks, hheader, List.nil_append, List.nil_append]

theorem groups_eq (h : IsHeaded lines blanks header rest) : lines.filterMap (·.group?) = rest.filterMap (·.group?) := by
  obtain ⟨rfl, hblank, keyword, token, hclass, -⟩ := h
  have hblanks : blanks.filterMap (·.group?) = [] :=
    List.filterMap_eq_nil_iff.2 fun line hline => NumberedLine.group?_eq_none (by simp [hblank line hline])
  have hheader : header.group? = none := NumberedLine.group?_eq_none (by simp [hclass])
  rw [List.filterMap_append, hblanks, List.filterMap_cons_none hheader, List.nil_append]

end IsHeaded

/-! ## The direction -/

namespace Document

namespace Reading

/-- Once something has been read, no lines change the direction. -/
theorem direction?_foldl {r : Reading} (h : r.started = true) (lines : List NumberedLine) :
    (lines.foldl step r).document.direction? = r.document.direction? := by
  induction lines generalizing r with
  | nil => rfl
  | cons line lines ih =>
    obtain ⟨direction?, started, hkeep, heq⟩ := r.step_eq line
    obtain ⟨rfl, rfl⟩ := hkeep h
    rw [List.foldl_cons, heq]
    exact ih rfl

/-- Blank lines leave everything as it is. -/
theorem foldl_blanks (r : Reading) {blanks : List NumberedLine} (h : ∀ line ∈ blanks, Line.classify line.text = .blank) :
    blanks.foldl step r = r := by
  induction blanks with
  | nil => rfl
  | cons line blanks ih =>
    obtain ⟨hfirst, hothers⟩ := List.forall_mem_cons.1 h
    rw [List.foldl_cons, step, hfirst]
    exact ih hothers

end Reading

/-- A document has the direction of its header. -/
theorem direction?_ofLines {lines blanks rest : List NumberedLine} {header : NumberedLine}
    (h : IsHeaded lines blanks header rest) :
    ∃ keyword token direction, Line.classify header.text = .header keyword (some token) ∧
      Line.isFlowchartKeyword keyword = true ∧ Direction.ofToken? token = some direction ∧
      (ofLines lines).direction? = some direction := by
  obtain ⟨rfl, hblank, keyword, token, hclass, hkeyword, htoken⟩ := h
  obtain ⟨direction, hdirection⟩ := Option.isSome_iff_exists.1 htoken
  refine ⟨keyword, token, direction, hclass, hkeyword, hdirection, ?_⟩
  have hstep : Reading.step {} header = { started := true, document.direction? := some direction } := by
    simp [Reading.step, hclass, hdirection]
  rw [ofLines, List.foldl_append, Reading.foldl_blanks _ hblank, List.foldl_cons, hstep, Reading.direction?_foldl rfl]

/-! ## All together -/

/-- What is read off lines that belong to the grammar keeps all that they say. -/
theorem isLossless_of_reflects {r : Reading} {lines blanks rest : List NumberedLine} {header : NumberedLine}
    (h : r.Reflects lines) (hdocument : r.document = ofLines lines) (hheaded : IsHeaded lines blanks header rest)
    (hrun : (Progress.inBody 0).run header.number rest = .ok ()) : r.document.IsLossless blanks header rest := by
  have haccepts : ∀ before line after, rest = before ++ line :: after →
      Progress.Accepts (openGroups 0 before) line.text := by
    rintro before line after rfl
    exact Progress.accepts_of_run hrun
  have haccepted : ∀ line ∈ rest, ∃ count, Progress.Accepts count line.text := by
    intro line hline
    obtain ⟨before, after, hsplit⟩ := List.append_of_mem hline
    exact ⟨_, haccepts before line after hsplit⟩
  constructor
  case blank => exact hheaded.blank
  case direction =>
    rw [hdocument]
    exact direction?_ofLines hheaded
  case kind =>
    intro line hline
    obtain ⟨count, hline⟩ := haccepted line hline
    cases hline with
    | blank hclass | comment hclass | groupOpen hclass _ | groupClose hclass _ | direction hclass _ _
    | statement hclass _ =>
      rw [hclass]
      trivial
  case statement =>
    intro line hline text hclass
    obtain ⟨count, hline⟩ := haccepted line hline
    obtain ⟨s, hparse, harrows, -⟩ := Statement.of_check (hline.check hclass)
    refine ⟨s, by simp [NumberedLine.statement?, hclass, hparse, Except.toOption], fun link hlink => ?_⟩
    cases harrow : link.arrow with
    | solid => exact Or.inl rfl
    | dashed => exact Or.inr rfl
    | other => exact absurd harrow (harrows link hlink)
  case closes =>
    intro before line after hsplit hclass
    have hline := haccepts before line after hsplit
    rw [← List.length_pos_iff, length_groupsAround, hheaded.openGroups_eq]
    cases hline with
    | groupClose _ hopen => exact Nat.pos_of_ne_zero hopen
    | blank hother | comment hother | groupOpen hother _ | direction hother _ _ | statement hother _ =>
      cases hother.symm.trans hclass
  case groups => rw [h.groups, hheaded.groups_eq]
  case edges => rw [h.edges, hheaded.edges_eq]
  case nodes =>
    intro line hline ref href
    have hmem : line ∈ lines := by
      rw [hheaded.split]
      exact List.mem_append_right _ (List.mem_cons_of_mem _ hline)
    exact (h.mem_nodeIds_iff ref.id).2 ⟨line, hmem, List.any_eq_true.2 ⟨ref, href, by simp⟩⟩

/-- A text that belongs to the strict grammar is read without loss: its first line that is not blank names the direction of
the document; every line behind it is blank, a comment, the opening or the closing of a group, a direction or a statement
that is read, with links that are solid or dashed; the groups are those of the opening lines, one each, and the edges those of
the statements, in order; every reference is to a node; and every closing line closes a group. -/
theorem lossless_of_checkSyntax {text : String} (h : checkSyntax text = .ok ()) :
    ∃ blanks header rest, (Body.ofText text.toList).lines = blanks ++ header :: rest ∧
      (parse text).IsLossless blanks header rest := by
  unfold checkSyntax at h
  simp only at h
  split at h
  · cases h
  · obtain ⟨blanks, header, rest, hheaded⟩ := IsHeaded.exists_of_run h
    rw [hheaded.run_eq] at h
    obtain ⟨r, hr, hreflects⟩ := reflects_parse text
    refine ⟨blanks, header, rest, hheaded.split, ?_⟩
    rw [← hr]
    exact isLossless_of_reflects hreflects hr hheaded h

/-- A fenced text with every kind of line that the grammar knows. -/
theorem lossless_of_checkSyntax_fenced :
    let text := "```\n\nflowchart LR\nsubgraph g[\"Team\"]\n  direction TD\n  a([\"x\"]) & b -.->|to| c\nend\n%% done\n```\n"
    checkSyntax text = .ok () ∧ (parse text).edges = [⟨"a", "c", some "to", true, 6⟩, ⟨"b", "c", some "to", true, 6⟩] ∧
    ∃ blanks header rest, (Body.ofText text.toList).lines = blanks ++ header :: rest ∧
      (parse text).IsLossless blanks header rest := by
  intro text
  have hok : checkSyntax text = .ok () := by decide +kernel
  exact ⟨hok, by decide +kernel, lossless_of_checkSyntax hok⟩

end Document

end Whiteboard
