import Whiteboard.Diagram.Grammar

/-!
# Other numbers for the same lines

Nothing that reads numbered lines decides anything by a number; it only passes the numbers on. So if every line gets another
number, what is read is the same but for the numbers in it (`Document.ofLines_renumbered`, `Progress.run_renumbered`).
-/

namespace Whiteboard

open Text

/-- The line under another number. -/
def NumberedLine.renumbered (f : Nat → Nat) (line : NumberedLine) : NumberedLine := { line with number := f line.number }

@[simp] theorem NumberedLine.text_renumbered (f : Nat → Nat) (line : NumberedLine) : (line.renumbered f).text = line.text :=
  rfl

@[simp] theorem NumberedLine.number_renumbered (f : Nat → Nat) (line : NumberedLine) :
    (line.renumbered f).number = f line.number :=
  rfl

/-- The body with other numbers for its lines. -/
def Body.renumbered (f : Nat → Nat) (body : Body) : Body where
  lines := body.lines.map (·.renumbered f)
  strayFences := body.strayFences.map f
  outside := body.outside.map f

namespace Document

variable (f : Nat → Nat)

/-- The document with other numbers for the lines that it names. -/
def renumbered (doc : Document) : Document :=
  { doc with
    nodes := doc.nodes.map fun n => { n with line := f n.line }
    edges := doc.edges.map fun e => { e with line := f e.line }
    groups := doc.groups.map fun g => { g with line := f g.line }
    declarations := doc.declarations.map fun d => { d with line := f d.line } }

/-- What has been read, with other numbers for its lines. -/
def Reading.renumbered (r : Reading) : Reading := { r with document := r.document.renumbered f }

/-- Noting a reference with other numbers gives the same nodes with other numbers. -/
theorem noteRef_renumbered (group? : Option String) (line : Nat) (nodes : List Node) (ref : NodeRef) :
    (noteRef group? line nodes ref).map (fun n => { n with line := f n.line }) =
      noteRef group? (f line) (nodes.map fun n => { n with line := f n.line }) ref := by
  have hany : (nodes.map fun n : Node => { n with line := f n.line }).any (·.id == ref.id) =
      nodes.any (·.id == ref.id) := by
    rw [List.any_map]
    rfl
  rw [noteRef, noteRef, hany]
  split
  · rw [List.map_map, List.map_map]
    apply List.map_congr_left
    intro node _
    simp only [Function.comp_apply]
    split <;> rfl
  · rw [List.map_append]
    rfl

/-- Noting references with other numbers gives the same nodes with other numbers. -/
theorem foldl_noteRef_renumbered (group? : Option String) (line : Nat) (refs : List NodeRef) (nodes : List Node) :
    (refs.foldl (noteRef group? line) nodes).map (fun n => { n with line := f n.line }) =
      refs.foldl (noteRef group? (f line)) (nodes.map fun n => { n with line := f n.line }) := by
  induction refs generalizing nodes with
  | nil => rfl
  | cons ref refs ih => rw [List.foldl_cons, ih, noteRef_renumbered, List.foldl_cons]

/-- Adding a statement with another number gives the same document with other numbers. -/
theorem addStatement_renumbered (group? : Option String) (line : Nat) (doc : Document) (statement : Statement) :
    (doc.addStatement group? line statement).renumbered f = (doc.renumbered f).addStatement group? (f line) statement := by
  have hedges : (statement.hops.flatMap (edgesOfHop line)).map (fun e => { e with line := f e.line }) =
      statement.hops.flatMap (edgesOfHop (f line)) := by
    rw [List.map_flatMap]
    simp only [edgesOfHop, List.map_flatMap, List.map_map]
    rfl
  have hdeclarations : (statement.refs.filterMap (declarationOf? line)).map (fun d => { d with line := f d.line }) =
      statement.refs.filterMap (declarationOf? (f line)) := by
    rw [List.map_filterMap]
    simp only [declarationOf?, Option.map_map]
    rfl
  simp only [addStatement, renumbered, List.map_append, hedges, hdeclarations, foldl_noteRef_renumbered]

/-- Reading one more line under another number. -/
theorem Reading.step_renumbered (r : Reading) (line : NumberedLine) :
    (r.renumbered f).step (line.renumbered f) = (r.step line).renumbered f := by
  simp only [Reading.step, NumberedLine.text_renumbered]
  cases Line.classify line.text with
  | header keyword direction? =>
    cases hs : r.started <;> simp [Reading.renumbered, Document.renumbered, hs]
  | groupOpen title => simp [Reading.renumbered, Document.renumbered]
  | statement text =>
    simp only
    cases Statement.parse text with
    | error e => rfl
    | ok statement => simp only [Reading.renumbered, addStatement_renumbered, NumberedLine.number_renumbered]
  | _ => rfl

/-- Reading lines with other numbers gives the same reading with other numbers. -/
theorem Reading.foldl_step_renumbered (r : Reading) (lines : List NumberedLine) :
    (lines.map (·.renumbered f)).foldl step (r.renumbered f) = (lines.foldl step r).renumbered f := by
  induction lines generalizing r with
  | nil => rfl
  | cons line lines ih => rw [List.map_cons, List.foldl_cons, step_renumbered, ih, List.foldl_cons]

/-- The document of the same lines under other numbers. -/
theorem ofLines_renumbered (lines : List NumberedLine) :
    ofLines (lines.map (·.renumbered f)) = (ofLines lines).renumbered f :=
  congrArg Reading.document (Reading.foldl_step_renumbered f {} lines)

end Document

/-- The error on another line. -/
def SyntaxError.renumbered (f : Nat → Nat) (e : SyntaxError) : SyntaxError := { e with line := f e.line }

/-- Whether lines belong to the grammar does not depend on their numbers, nor does what is wrong with them. The error that a
header is missing is on the last line, or on line 1 if there is none; so with no lines the one before them counts. -/
theorem Progress.run_renumbered {f : Nat → Nat} (hf : ∀ n, 0 < n → 0 < f n) (progress : Progress) {last last' : Nat}
    {lines : List NumberedLine} (hlines : ∀ line ∈ lines, 0 < line.number) (hlast : lines = [] → 0 < last ∧ last' = f last) :
    progress.run last' (lines.map (·.renumbered f)) = (progress.run last lines).mapError (·.renumbered f) := by
  induction lines generalizing progress last last' with
  | nil =>
    obtain ⟨hpos, rfl⟩ := hlast rfl
    rw [List.map_nil]
    rcases progress with - | (- | n)
    · rw [run, run, Nat.max_eq_left (hf last hpos), Nat.max_eq_left hpos]
      rfl
    · rfl
    · rfl
  | cons line lines ih =>
    obtain ⟨hpos, hlines⟩ := List.forall_mem_cons.1 hlines
    simp only [List.map_cons, run, NumberedLine.text_renumbered]
    cases progress.step line.text with
    | error fault => rfl
    | ok next => exact ih next hlines fun _ => ⟨hpos, rfl⟩

end Whiteboard
