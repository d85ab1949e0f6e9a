import Whiteboard.Proofs.Diagram.RoundTrip
import Whiteboard.Proofs.Validation.Agreement

/-!
# Descriptions pass the checks

Main statement: the text of a description, whatever its labels are and whether or not ids repeat in it, belongs to the strict
grammar, and the linting finds no errors in it but keywords, of which a label may hold any (`Spec.passes_render`).

The grammar goes over the lines one by one. For each kind of line there is a statement about one step, and for each part of a
description one about the steps over that part: it leaves as many groups open as there were before it (`Progress.Passes`).
The one error that the linting finds in texts of the grammar, an `&` without blanks around it, needs a statement in which
nodes are joined by `&`, and a description is written without any.
-/

namespace Whiteboard

open Text

/-- If the line is a statement, no nodes are joined by `&` in it. -/
def Line.IsPlain (raw : List Char) : Prop :=
  ∀ text s, classify raw = .statement text → Statement.parse text = .ok s → s.ampersands = []

/-- A line that is no statement joins no nodes. -/
theorem Line.isPlain_of_ne {raw : List Char} (h : ∀ text, classify raw ≠ .statement text) : IsPlain raw :=
  fun text _ hclass => absurd hclass (h text)

namespace Progress

/-- The grammar takes the lines, none of them joins nodes by `&`, and they lead from one state to the other. -/
structure Passes (p : Progress) (ls : List (List Char)) (p' : Progress) : Prop where
  steps : ls.foldlM step p = .ok p'
  plain : ∀ l ∈ ls, Line.IsPlain l

variable {p p' p'' : Progress} {ls ls' : List (List Char)}

theorem passes_nil (p : Progress) : p.Passes [] p := ⟨rfl, nofun⟩

theorem passes_singleton {l : List Char} (hstep : p.step l = .ok p') (hplain : Line.IsPlain l) : p.Passes [l] p' := by
  refine ⟨?_, fun k hk => List.mem_singleton.1 hk ▸ hplain⟩
  rw [List.foldlM_cons, hstep]
  rfl

/-- Lines lead from state to state. -/
theorem Passes.append (h : p.Passes ls p') (h' : p'.Passes ls' p'') : p.Passes (ls ++ ls') p'' := by
  refine ⟨?_, List.forall_mem_append.2 ⟨h.plain, h'.plain⟩⟩
  rw [List.foldlM_append, h.steps]
  exact h'.steps

/-- Parts each of which leads back to where it began. -/
theorem passes_flatMap {xs : List α} {part : α → List (List Char)} (h : ∀ x ∈ xs, p.Passes (part x) p) :
    p.Passes (xs.flatMap part) p := by
  induction xs with
  | nil => exact passes_nil p
  | cons x xs ih =>
    obtain ⟨hfirst, hrest⟩ := List.forall_mem_cons.1 h
    rw [List.flatMap_cons]
    exact hfirst.append (ih hrest)

/-- Lines each of which leads back to where it began. -/
theorem passes_map {xs : List α} {line : α → List Char} (h : ∀ x ∈ xs, p.Passes [line x] p) : p.Passes (xs.map line) p := by
  rw [List.map_eq_flatMap]
  exact passes_flatMap h

/-- Lines that lead to the end of all groups belong to the grammar, whatever their numbers. -/
theorem Passes.run_eq {lines : List NumberedLine} {last : Nat} (h : p.Passes (lines.map (·.text)) (.inBody 0)) :
    p.run last lines = .ok () := by
  have hsteps := h.steps
  clear h
  induction lines generalizing p last with
  | nil =>
    cases hsteps
    rfl
  | cons line lines ih =>
    rw [List.map_cons, List.foldlM_cons] at hsteps
    rw [run]
    cases hstep : p.step line.text with
    | error fault =>
      rw [hstep] at hsteps
      cases hsteps
    | ok next =>
      rw [hstep] at hsteps
      exact ih hsteps

/-! ## The lines of a description -/

theorem passes_headerLine (direction : Direction) : beforeHeader.Passes [(headerLine direction).toList] (.inBody 0) := by
  refine passes_singleton ?_ (Line.isPlain_of_ne fun text => ?_)
  · simp only [step, classify_headerLine]
    cases direction <;> rfl
  · rw [classify_headerLine]
    simp

/-- A line that is a statement of the grammar, without any `&`. -/
theorem passes_statement (count : Nat) {raw text : List Char} {s : Statement} (hclass : Line.classify raw = .statement text)
    (hparse : Statement.parse text = .ok s) (hcheck : Statement.check text = .ok ()) (hplain : s.ampersands = []) :
    (inBody count).Passes [raw] (.inBody count) := by
  refine passes_singleton ?_ fun text' s' hclass' hparse' => ?_
  · simp only [step, hclass, hcheck]
    rfl
  · rw [hclass] at hclass'
    cases hclass'
    rw [hparse] at hparse'
    cases hparse'
    exact hplain

/-- The line of a node stays in the body. -/
theorem passes_nodeLine (count depth : Nat) {n : Spec.Node} (hid : IsWord n.id) :
    (inBody count).Passes [(indented depth n.line).toList] (.inBody count) := by
  have hparse := parse_nodeLine hid n.label n.shape
  refine passes_statement count (classify_nodeLine hid n.label n.shape depth) hparse ?_ rfl
  rw [Statement.check, hparse]
  rfl

/-- The line of an edge stays in the body. -/
theorem passes_edgeLine (count : Nat) {e : Spec.Edge} (hword : IsWord e.source ∧ IsWord e.target)
    (hsource : e.source ∉ lineKeywords) : (inBody count).Passes [(indented 1 e.line).toList] (.inBody count) := by
  obtain ⟨i, k, n, hparse⟩ := parse_edgeLine hword.1 hword.2 e.label? e.dashed
  refine passes_statement count (classify_edgeLine hword.1 hword.2 hsource e.label? e.dashed 1) hparse ?_ rfl
  rw [Statement.check, hparse]
  cases e.dashed <;> rfl

/-- The line that opens a group leads into it. -/
theorem passes_groupOpenLine (count : Nat) {g : Spec.Group} (hid : IsWord g.id) :
    (inBody count).Passes [(indented 1 (groupOpenLine g.id g.label)).toList] (.inBody (count + 1)) := by
  have hclass := classify_groupOpenLine hid g.label 1
  have htitle : (groupTitle g.id g.label).isEmpty = false := by simp [groupTitle]
  refine passes_singleton ?_ (Line.isPlain_of_ne fun text => ?_)
  · simp only [step, hclass, htitle, Bool.false_eq_true, if_false]
  · rw [hclass]
    simp

theorem passes_groupCloseLine (count : Nat) :
    (inBody (count + 1)).Passes [(indented 1 groupCloseLine).toList] (.inBody count) := by
  refine passes_singleton ?_ (Line.isPlain_of_ne fun text => ?_)
  · simp only [step, classify_groupCloseLine]
  · rw [classify_groupCloseLine]
    simp

/-! ## The parts of a description -/

variable {spec : Spec}

/-- A group closes as many groups as it opens. -/
theorem passes_groupLines (h : spec.IsPrintable) {g : Spec.Group} (hg : g ∈ spec.groups) :
    (inBody 0).Passes ((spec.groupLines g).map (·.toList)) (.inBody 0) := by
  have hmembers : (inBody 1).Passes ((spec.members g.id).map fun n => (indented 2 n.line).toList) (.inBody 1) :=
    passes_map fun n hn => passes_nodeLine 1 2 (h.node_word n (List.mem_of_mem_filter hn))
  have hlines : (spec.groupLines g).map (·.toList) = [(indented 1 (groupOpenLine g.id g.label)).toList] ++
      (spec.members g.id).map (fun n => (indented 2 n.line).toList) ++ [(indented 1 groupCloseLine).toList] := by
    simp [Spec.groupLines]
  rw [hlines]
  exact ((passes_groupOpenLine 0 (h.group_word g hg)).append hmembers).append (passes_groupCloseLine 0)

/-- The grammar takes all lines of a description. -/
theorem passes_toLines (h : spec.IsPrintable) : beforeHeader.Passes (spec.toLines.map (·.toList)) (.inBody 0) := by
  have hnodes : (inBody 0).Passes
      ((spec.nodes.filter (!spec.isGrouped ·)).map fun n => (indented 1 n.line).toList) (.inBody 0) :=
    passes_map fun n hn => passes_nodeLine 0 1 (h.node_word n (List.mem_of_mem_filter hn))
  have hgroups : (inBody 0).Passes (spec.groups.flatMap fun g => (spec.groupLines g).map (·.toList)) (.inBody 0) :=
    passes_flatMap fun g hg => passes_groupLines h hg
  have hedges : (inBody 0).Passes (spec.edges.map fun e => (indented 1 e.line).toList) (.inBody 0) :=
    passes_map fun e he => passes_edgeLine 0 (h.edge_word e he) (h.edge_source e he)
  have hlines : spec.toLines.map (·.toList) = [(headerLine spec.direction).toList] ++
      (spec.nodes.filter (!spec.isGrouped ·)).map (fun n => (indented 1 n.line).toList) ++
      spec.groups.flatMap (fun g => (spec.groupLines g).map (·.toList)) ++
      spec.edges.map (fun e => (indented 1 e.line).toList) := by
    simp [Spec.toLines, List.map_flatMap, Function.comp_def]
  rw [hlines]
  exact (((passes_headerLine spec.direction).append hnodes).append hgroups).append hedges

end Progress

namespace Spec

variable {spec : Spec}

/-- The text of a description has no lines but those of the description, and no fences. -/
theorem IsPrintable.body_render (h : spec.IsPrintable) : Body.ofText spec.render.toList =
    ⟨(spec.toLines.map (·.toList)).mapIdx fun i l => ⟨i + 1, l⟩, [], []⟩ := by
  rw [toList_render, Body.ofText_unlines fun l hl => (h.isWrittenLine l hl).isBodyLine]

/-- What is printed is accepted by the grammar. -/
theorem IsPrintable.checkSyntax_render (h : spec.IsPrintable) : checkSyntax spec.render = .ok () := by
  have htexts : ((spec.toLines.map (·.toList)).mapIdx fun i l => (⟨i + 1, l⟩ : NumberedLine)).map (·.text) =
      spec.toLines.map (·.toList) := by
    apply List.ext_getElem
    · simp
    · simp
  have hpasses := Progress.passes_toLines h
  rw [← htexts] at hpasses
  simp only [checkSyntax, h.body_render, List.head?_nil, Option.or_none]
  exact hpasses.run_eq

/-- No statement of the text of a description joins nodes by `&`. -/
theorem IsPrintable.isPlain_of_mem_body (h : spec.IsPrintable) :
    ∀ line ∈ (Body.ofText spec.render.toList).lines, Line.IsPlain line.text := by
  intro line hline
  rw [h.body_render] at hline
  obtain ⟨i, hi, rfl⟩ := List.mem_mapIdx.1 hline
  exact (Progress.passes_toLines h).plain _ (List.getElem_mem hi)

/-- The text of a description passes the checks. Whatever its labels are, if its ids are words and no edge starts at a word
that makes its line something else, its text belongs to the strict grammar, and whatever the linting looks for, it finds no
errors but forbidden keywords. -/
theorem passes_render (spec : Spec) (h : spec.IsPrintable) :
    checkSyntax spec.render = .ok () ∧
    ∀ options, ∀ v ∈ (Lint.report options spec.render).errors,
      v.fault.code = .forbiddenFeature ∨ v.fault.code = .erOrGantt := by
  refine ⟨h.checkSyntax_render, fun options v hv => ?_⟩
  rcases exists_of_checkSyntax h.checkSyntax_render hv with hcode | hcode | ⟨-, line, hline, text, s, hclass, hparse, hne⟩
  · exact Or.inl hcode
  · exact Or.inr hcode
  · exact absurd (h.isPlain_of_mem_body line hline text s hclass hparse) hne

/-- A description in which ids repeat and labels hold what means something in diagram text. -/
def overcrowded : Spec where
  direction := .bottomUp
  nodes := [⟨"a", "x & y --> z\n```", .decision, some "g"⟩, ⟨"a", "\"]; erDiagram | [(", .stadium, none⟩]
  groups := [⟨"g", "end\r\n%% &"⟩, ⟨"g", "subgraph h"⟩]
  edges := [⟨"a", "end", some "| &\u2003==>|", true⟩, ⟨"end", "end", some " ", false⟩]

/-- The grammar takes it, and the linter finds nothing but the name of another kind of diagram in a label. -/
theorem passes_render_overcrowded :
    overcrowded.IsPrintable ∧ checkSyntax overcrowded.render = .ok () ∧
    Lint.atColumn 2 18 (.entityOrGantt "erDiagram") ∈ (Lint.report {} overcrowded.render).errors ∧
    ∀ v ∈ (Lint.report {} overcrowded.render).errors, v.fault.code = .forbiddenFeature ∨ v.fault.code = .erOrGantt := by
  have h : overcrowded.IsPrintable := ⟨by decide, by decide, by decide, by decide⟩
  exact ⟨h, (passes_render overcrowded h).1, by decide +kernel, (passes_render overcrowded h).2 {}⟩

end Spec

end Whiteboard
