import Whiteboard.Proofs.Diagram.Content
import Whiteboard.Proofs.Diagram.Printer

/-!
# Chains of node groups

Main statement: a chain of node groups as it is written is read back, and as the second line of a document it gives every edge
between the two sides of each link (`Statement.read_back`). Reading back holds of written statements in general; what is left
is that edges do not depend on columns, and what the line contributes.
-/

namespace Whiteboard

open Text

/-- Without their columns the references of a group are the same. -/
theorem NodeGroup.refs_unplaced (group : NodeGroup) : group.unplaced.refs = group.refs.map (·.unplaced) := by
  simp [refs, unplaced]

/-- Without their columns the hops of a statement are the same. -/
theorem Statement.hops_unplaced (s : Statement) :
    s.unplaced.hops = s.hops.map fun (left, link, right) => (left.unplaced, link.unplaced, right.unplaced) := by
  have hgroups : s.unplaced.groups = s.groups.map (·.unplaced) := by simp [groups, unplaced]
  rw [hops, hgroups, hops, unplaced, List.zip_map]
  rfl

/-- The edges of a statement do not depend on its columns. -/
theorem Statement.edges_unplaced (line : Nat) (s : Statement) : s.unplaced.edges line = s.edges line := by
  rw [Document.edges_eq_flatMap, Document.edges_eq_flatMap, hops_unplaced, List.flatMap_map]
  refine List.flatMap_congr fun (left, link, right) _ => ?_
  simp only [Document.edgesOfHop, NodeGroup.refs_unplaced, List.flatMap_map, List.map_map]
  rfl

namespace Statement

/-- The edges in the line of a written statement, if its first word is no keyword. A lone `end` closes a group; it has no edges,
read as a statement or not. -/
theorem edges_line {s : Statement} (h : s.IsWritable) (hword : String.ofList (Line.firstWord s.text) ∉ lineKeywords)
    (number : Nat) : (⟨number, s.text⟩ : NumberedLine).edges = s.edges number := by
  by_cases hclose : s.text = groupCloseLine.toList
  · have hline : Line.classify groupCloseLine.toList = .groupClose := by decide
    have hedges : s.edges number = [] := by
      rw [edges, hops, steps_eq_nil_of_text_eq hclose, List.zip_nil_right, List.flatMap_nil]
    rw [hedges, NumberedLine.edges, NumberedLine.statement?, hclose, hline]
    rfl
  · have hline : Line.classify s.text = .statement s.text := classify_text h hword hclose 0
    obtain ⟨s', hparse, hsame⟩ := parse_text h
    rw [NumberedLine.edges, NumberedLine.statement?, hline]
    simp only [hparse, Except.toOption, Option.elim_some]
    rw [← edges_unplaced, hsame, edges_unplaced]

/-- The lines of a header line and a written statement. -/
theorem body_header_text {s : Statement} (h : s.IsWritable) (hbreak : '\n' ∉ s.text) (direction : Direction) :
    (Body.ofText (headerLine direction ++ "\n" ++ String.ofList s.text).toList).lines =
      [⟨1, (headerLine direction).toList⟩, ⟨2, s.text⟩] := by
  have hheader := (isWrittenLine_headerLine direction).isBodyLine
  have hne : s.text ≠ [] := by
    obtain ⟨c, cs, hcons, -⟩ := h.startsWithIdChar
    rw [hcons]
    exact List.cons_ne_nil c cs
  have hlines : numberedLines (headerLine direction ++ "\n" ++ String.ofList s.text).toList =
      [⟨1, (headerLine direction).toList⟩, ⟨2, s.text⟩] := by
    have htext : (headerLine direction ++ "\n" ++ String.ofList s.text).toList =
        (headerLine direction).toList ++ '\n' :: s.text := by
      simp
    rw [htext, numberedLines, lines_append_newline _ hheader.newline hheader.ending,
      lines_eq_singleton hne hbreak]
    rfl
  rw [Body.ofText_of_unfenced, hlines]
  rw [hlines, List.forall_mem_cons, List.forall_mem_singleton]
  exact ⟨hheader.unfenced 1, h.startsWithIdChar.isFence 0 2⟩

/-- A chain of node groups as it is written, with blanks around every `&` and every arrow, reads as the same groups, shapes,
labels and links. On the line behind a header, if it is one line and its first word is no keyword, it is every edge of the
document: for each link, from every node on its left to every node on its right, row by row. -/
theorem read_back {s : Statement} (h : s.IsWritable) :
    (∃ s', parse s.text = .ok s' ∧ s'.unplaced = s.unplaced) ∧
    (String.ofList (Line.firstWord s.text) ∉ lineKeywords → '\n' ∉ s.text → ∀ direction,
      (Document.parse (headerLine direction ++ "\n" ++ String.ofList s.text)).edges = s.edges 2) := by
  refine ⟨parse_text h, fun hword hbreak direction => ?_⟩
  obtain ⟨r, hr, hreflects⟩ := Document.reflects_parse (headerLine direction ++ "\n" ++ String.ofList s.text)
  have hheader : (⟨1, (headerLine direction).toList⟩ : NumberedLine).edges = [] := by
    rw [NumberedLine.edges, NumberedLine.statement?, classify_headerLine]
    rfl
  rw [← hr, hreflects.edges, body_header_text h hbreak, List.flatMap_cons, List.flatMap_singleton, hheader, List.nil_append,
    edges_line h hword]

/-- A chain whose labels are full of arrows, brackets and ampersands. -/
def cluttered : Statement where
  first := ⟨⟨"a", some ⟨.rectangle, "x --> y", true⟩, 0⟩, [(0, ⟨"end", none, 0⟩)]⟩
  steps := [
    (⟨.dashed, some "& -.->", 0⟩,
      ⟨⟨"c", some ⟨.circle, "((q)) & [s]", true⟩, 0⟩, [(0, ⟨"d", some ⟨.rounded, ")<br/>(", true⟩, 0⟩)]⟩),
    (⟨.solid, none, 0⟩, ⟨⟨"a", none, 0⟩, []⟩)]

/-- All of `cluttered` is read back, with six edges. -/
theorem read_back_cluttered :
    String.ofList cluttered.text =
        "a[\"x --> y\"] & end -.->|& -.->| c((\"((q)) & [s]\")) & d(\")<br/>(\") --> a" ∧
    cluttered.IsWritable ∧ String.ofList (Line.firstWord cluttered.text) ∉ lineKeywords ∧ '\n' ∉ cluttered.text ∧
    (∃ s', parse cluttered.text = .ok s' ∧ s'.unplaced = cluttered) ∧
    (Document.parse (headerLine .topDown ++ "\n" ++ String.ofList cluttered.text)).edges =
      [⟨"a", "c", some "& -.->", true, 2⟩, ⟨"a", "d", some "& -.->", true, 2⟩, ⟨"end", "c", some "& -.->", true, 2⟩,
        ⟨"end", "d", some "& -.->", true, 2⟩, ⟨"c", "a", none, false, 2⟩, ⟨"d", "a", none, false, 2⟩] := by
  have hwritable : cluttered.IsWritable := by decide
  have hword : String.ofList (Line.firstWord cluttered.text) ∉ lineKeywords := by decide
  have hbreak : '\n' ∉ cluttered.text := by decide +kernel
  have hback := read_back hwritable
  refine ⟨by decide, hwritable, hword, hbreak, hback.1, (hback.2 hword hbreak .topDown).trans ?_⟩
  decide +kernel

end Statement

end Whiteboard
