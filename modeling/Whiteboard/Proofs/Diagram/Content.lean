import Whiteboard.Proofs.Diagram.Rereading
import Mathlib.Data.List.Defs

/-!
# What lines contribute

A document consists of what the lines of a text contribute to it. A line that reads as a statement contributes its
references, the declarations among them and an edge for every pair of nodes on the two sides of a link; a line that opens a
group contributes the group; and the groups that are open at a line follow from the lines before it. Main statement: a
reading reflects the lines that have been read (`Document.reflects_parse`), so that every part of the document is a function
of the lines, and each node is what the first line that refers to it and the first declaration of it say.

`Document.Reading.Reflects` is an invariant of reading: the empty reading reflects no lines, and one more line preserves it,
if lines are numbered in order.
-/

namespace Whiteboard

open Text

/-! ## Lines -/

/-- The edges of a statement: for each link in order, every node on its left with every node on its right, row by row. -/
def Statement.edges (line : Nat) (s : Statement) : List Document.Edge :=
  s.hops.flatMap fun (left, link, right) => (left.refs ×ˢ right.refs).map fun (source, target) =>
    ⟨source.id, target.id, link.label?.map Label.decode, link.arrow == .dashed, line⟩

namespace NumberedLine

/-- The statement that a line reads as, if it reads as one. -/
def statement? (line : NumberedLine) : Option Statement :=
  match Line.classify line.text with
  | .statement text => (Statement.parse text).toOption
  | _ => none

/-- The references to nodes in a line. -/
def refs (line : NumberedLine) : List NodeRef := line.statement?.elim [] (·.refs)

/-- Whether a line reads as a statement that refers to the node with the given id. -/
def mentions (line : NumberedLine) (id : String) : Bool := line.refs.any (·.id == id)

/-- The declarations in a line. -/
def declarations (line : NumberedLine) : List Document.Declaration :=
  line.refs.filterMap (Document.declarationOf? line.number)

/-- The edges in a line. -/
def edges (line : NumberedLine) : List Document.Edge := line.statement?.elim [] (·.edges line.number)

/-- The group that a line opens. -/
def group? (line : NumberedLine) : Option Document.Group :=
  match Line.classify line.text with
  | .groupOpen title => some ⟨(Document.groupOfTitle title).1, (Document.groupOfTitle title).2, line.number⟩
  | _ => none

/-- The ids of the groups that are open behind a line, given those that are open before it; the innermost one comes
first. -/
def enclose (line : NumberedLine) (around : List String) : List String :=
  match Line.classify line.text with
  | .groupOpen title => (Document.groupOfTitle title).1 :: around
  | .groupClose => around.tail
  | _ => around

end NumberedLine

/-- The ids of the groups that are open behind the given lines, the innermost one first. -/
def groupsAround (lines : List NumberedLine) : List String := lines.foldl (fun around line => line.enclose around) []

/-- A last line opens or closes a group in those around it. -/
theorem groupsAround_concat (lines : List NumberedLine) (line : NumberedLine) :
    groupsAround (lines ++ [line]) = line.enclose (groupsAround lines) := by
  rw [groupsAround, List.foldl_append, List.foldl_cons, List.foldl_nil, groupsAround]

/-- The ids of the groups that are open at the line with the given number. -/
def groupsAt (lines : List NumberedLine) (number : Nat) : List String :=
  groupsAround (lines.filter (·.number < number))

/-- Lines are numbered in order. -/
theorem Body.pairwise_number (text : List Char) :
    (ofText text).lines.Pairwise fun before after => before.number < after.number := by
  have hall := pairwise_numberedLines text
  unfold ofText
  simp only
  split
  · exact hall
  · exact hall.filter _
  · exact hall.filter _

namespace Document

/-! ## References one after the other -/

/-- The number of the line that refers to a node first, if the node is among the given ones. -/
def firstLineIn? (nodes : List Node) (id : String) : Option Nat := (nodes.find? (·.id == id)).map (·.line)

/-- The line of a node is that of its first reference. -/
theorem firstLineIn?_noteRef (group? : Option String) (line : Nat) (nodes : List Node) (ref : NodeRef) (id : String) :
    firstLineIn? (noteRef group? line nodes ref) id =
      (firstLineIn? nodes id).or (if ref.id = id then some line else none) := by
  rw [firstLineIn?, find?_noteRef, firstLineIn?]
  split
  · cases nodes.find? (·.id == id) <;> rfl
  · rw [Option.or_none]

/-- The line of a node is that of its first reference, also after several more. -/
theorem firstLineIn?_foldl (group? : Option String) (line : Nat) (refs : List NodeRef) (nodes : List Node) (id : String) :
    firstLineIn? (refs.foldl (noteRef group? line) nodes) id =
      (firstLineIn? nodes id).or (if refs.any (·.id == id) then some line else none) := by
  induction refs generalizing nodes with
  | nil => simp
  | cons ref refs ih =>
    rw [List.foldl_cons, ih, firstLineIn?_noteRef, Option.or_assoc]
    congr 1
    by_cases hid : ref.id = id
    · simp [hid]
    · simp [hid]

/-- What a declaration says of its node, where the given group is the innermost one. -/
def Declaration.details (group? : Option String) (d : Declaration) : Details := ⟨d.label, d.shape, group?⟩

/-- A declaration has the details of its reference. -/
theorem map_details_declarationOf? (group? : Option String) (line : Nat) (ref : NodeRef) :
    (declarationOf? line ref).map (·.details group?) = detailsOf? group? ref := by
  rw [declarationOf?, Option.map_map, detailsOf?]
  rfl

/-- A declaration has the id of its reference and the number of its line. -/
theorem id_of_declarationOf? {line : Nat} {ref : NodeRef} {d : Declaration} (h : declarationOf? line ref = some d) :
    d.id = ref.id ∧ d.line = line := by
  obtain ⟨span, -, rfl⟩ := Option.map_eq_some_iff.1 h
  exact ⟨rfl, rfl⟩

/-- What is known of a node is what its first declaration says, also after several more references. -/
theorem detailsIn?_foldl (group? : Option String) (line : Nat) (refs : List NodeRef) (nodes : List Node) (id : String) :
    detailsIn? (refs.foldl (noteRef group? line) nodes) id = (detailsIn? nodes id).or
      (((refs.filterMap (declarationOf? line)).find? (·.id == id)).map (·.details group?)) := by
  induction refs generalizing nodes with
  | nil => simp
  | cons ref refs ih =>
    rw [List.foldl_cons, ih, detailsIn?_noteRef, Option.or_assoc, List.filterMap_cons,
      ← map_details_declarationOf? group? line ref]
    congr 1
    cases hd : declarationOf? line ref with
    | none => simp
    | some d =>
      have hid := (id_of_declarationOf? hd).1
      by_cases href : ref.id = id
      · simp [hid, href]
      · simp [hid, href]

/-! ## Readings -/

/-- The edges of a statement are those of its hops. -/
theorem edges_eq_flatMap (line : Nat) (s : Statement) : s.edges line = s.hops.flatMap (edgesOfHop line) := by
  rw [Statement.edges]
  refine List.flatMap_congr fun hop _ => ?_
  simp only [edgesOfHop, SProd.sprod, List.product, List.map_flatMap, List.map_map]
  rfl

namespace Reading

/-- What one more line adds to what has been read; the direction stays once something has been read. -/
theorem step_eq (r : Reading) (line : NumberedLine) :
    ∃ direction? started, (r.started = true → started = true ∧ direction? = r.document.direction?) ∧ r.step line =
      { document :=
          { direction?
            nodes := line.refs.foldl (noteRef r.openGroups.head? line.number) r.document.nodes
            edges := r.document.edges ++ line.edges
            groups := r.document.groups ++ line.group?.toList
            declarations := r.document.declarations ++ line.declarations }
        openGroups := line.enclose r.openGroups
        started } := by
  unfold step NumberedLine.declarations NumberedLine.refs NumberedLine.edges NumberedLine.group? NumberedLine.enclose
    NumberedLine.statement?
  cases Line.classify line.text with
  | header keyword direction? =>
    cases hs : r.started
    · exact ⟨_, true, nofun, by simp; rfl⟩
    · exact ⟨r.document.direction?, true, fun _ => ⟨rfl, rfl⟩, by simp [← hs]⟩
  | statement text =>
    cases hparse : Statement.parse text with
    | error e => exact ⟨r.document.direction?, true, fun _ => ⟨rfl, rfl⟩, by simp [hparse, Except.toOption]⟩
    | ok s =>
      exact ⟨r.document.direction?, true, fun _ => ⟨rfl, rfl⟩,
        by simp [hparse, addStatement, Except.toOption, edges_eq_flatMap]⟩
  | _ => exact ⟨r.document.direction?, r.started, fun hs => ⟨hs, rfl⟩, by simp⟩

/-- What has been read reflects the lines: edges, groups and declarations are those of the lines, in order; a node is on the
first line that refers to it; and what is known of it is what its first declaration says, with the innermost group that is
open there. -/
structure Reflects (r : Reading) (lines : List NumberedLine) : Prop where
  openGroups : r.openGroups = groupsAround lines
  edges : r.document.edges = lines.flatMap (·.edges)
  groups : r.document.groups = lines.filterMap (·.group?)
  declarations : r.document.declarations = lines.flatMap (·.declarations)
  firstLine : ∀ id, firstLineIn? r.document.nodes id = (lines.find? (·.mentions id)).map (·.number)
  details : ∀ id, detailsIn? r.document.nodes id =
    (r.document.declarations.find? (·.id == id)).map fun d => d.details (groupsAt lines d.line).head?

theorem reflects_nil : ({} : Reading).Reflects [] :=
  ⟨rfl, rfl, rfl, rfl, fun _ => rfl, fun _ => rfl⟩

/-- The declarations of lines bear their numbers. -/
theorem exists_line_of_mem_declarations {lines : List NumberedLine} {d : Declaration}
    (h : d ∈ lines.flatMap (·.declarations)) : ∃ line ∈ lines, d.line = line.number := by
  obtain ⟨line, hline, hd⟩ := List.mem_flatMap.1 h
  obtain ⟨ref, -, href⟩ := List.mem_filterMap.1 hd
  exact ⟨line, hline, (id_of_declarationOf? href).2⟩

/-- The groups that were open at a line do not change with a later line. -/
theorem groupsAt_concat_of_le {line : NumberedLine} {number : Nat} (lines : List NumberedLine) (h : number ≤ line.number) :
    groupsAt (lines ++ [line]) number = groupsAt lines number := by
  rw [groupsAt, List.filter_append, groupsAt]
  simp [Nat.not_lt.2 h]

/-- The groups that are open at a last line are those around it. -/
theorem groupsAt_concat_self {lines : List NumberedLine} {line : NumberedLine}
    (hlast : ∀ before ∈ lines, before.number < line.number) :
    groupsAt (lines ++ [line]) line.number = groupsAround lines := by
  have hall : lines.filter (·.number < line.number) = lines :=
    List.filter_eq_self.2 fun before hbefore => by simpa using hlast before hbefore
  rw [groupsAt, List.filter_append, hall]
  simp

/-- One more line is reflected too, if its number is greater than those of the lines before. -/
theorem Reflects.step {r : Reading} {lines : List NumberedLine} (h : r.Reflects lines) {line : NumberedLine}
    (hlast : ∀ before ∈ lines, before.number < line.number) : (r.step line).Reflects (lines ++ [line]) := by
  obtain ⟨direction?, started, -, heq⟩ := r.step_eq line
  rw [heq]
  refine ⟨?_, ?_, ?_, ?_, fun id => ?_, fun id => ?_⟩
  · rw [groupsAround_concat, h.openGroups]
  · simp [h.edges]
  · simp [h.groups, List.filterMap_append, List.filterMap_cons]
    cases line.group? <;> rfl
  · simp [h.declarations]
  · simp only [firstLineIn?_foldl, h.firstLine, List.find?_append, Option.map_or, List.find?_singleton]
    congr 1
    rw [NumberedLine.mentions]
    split <;> rfl
  · have hearlier : ∀ d ∈ r.document.declarations, groupsAt (lines ++ [line]) d.line = groupsAt lines d.line := by
      intro d hd
      rw [h.declarations] at hd
      obtain ⟨before, hbefore, hline⟩ := exists_line_of_mem_declarations hd
      exact groupsAt_concat_of_le lines (hline ▸ (hlast before hbefore).le)
    have hnow := groupsAt_concat_self hlast
    simp only [detailsIn?_foldl, h.details, List.find?_append, Option.map_or, h.openGroups]
    congr 1
    · cases hd : r.document.declarations.find? (·.id == id) with
      | none => rfl
      | some d => rw [Option.map_some, Option.map_some, hearlier d (List.mem_of_find?_eq_some hd)]
    · cases hd : line.declarations.find? (·.id == id) with
      | none =>
        rw [NumberedLine.declarations] at hd
        rw [hd]
        rfl
      | some d =>
        obtain ⟨ref, -, href⟩ := List.mem_filterMap.1 (List.mem_of_find?_eq_some hd)
        rw [NumberedLine.declarations] at hd
        rw [hd, Option.map_some, Option.map_some, (id_of_declarationOf? href).2, hnow]

/-- Reading lines that are numbered in order reflects them. -/
theorem reflects_foldl {lines : List NumberedLine}
    (h : lines.Pairwise fun before after => before.number < after.number) :
    (lines.foldl Reading.step {}).Reflects lines := by
  induction lines using List.reverseRecOn with
  | nil => exact reflects_nil
  | append_singleton lines line ih =>
    obtain ⟨hlines, -, hlast⟩ := List.pairwise_append.1 h
    rw [List.foldl_append, List.foldl_cons, List.foldl_nil]
    exact (ih hlines).step fun before hbefore => hlast before hbefore line (by simp)

end Reading

/-- A document reflects the lines of its text. -/
theorem reflects_parse (text : String) :
    ∃ r : Reading, r.document = parse text ∧ r.Reflects (Body.ofText text.toList).lines :=
  ⟨_, rfl, Reading.reflects_foldl (Body.pairwise_number text.toList)⟩

end Document

end Whiteboard
