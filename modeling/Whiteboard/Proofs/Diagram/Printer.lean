import Whiteboard.Diagram.Document
import Whiteboard.Proofs.Diagram.Written

/-!
# Reading the lines of a description

For every kind of line that a description is written as: what the line is, and what statement or group it reads as. The
labels are arbitrary texts; the ids are words.
-/

namespace Whiteboard

open Text

/-- An indented line has four blanks for every level in front. -/
theorem toList_indented (depth : Nat) (line : String) :
    (indented depth line).toList = List.replicate (4 * depth) ' ' ++ line.toList := by
  rw [indented, String.toList_append, String.toList_ofList]

/-- A line of its own that begins with an identifier character is a written line at any depth. -/
theorem isWrittenLine_indented {line : String} (depth : Nat) (hline : StartsWithIdChar line.toList)
    (hs : ∀ d ∈ line.toList, d ≠ '\n' ∧ d ≠ '\r') : IsWrittenLine (indented depth line).toList := by
  rw [toList_indented]
  refine ⟨⟨_, _, rfl, hline⟩, ?_⟩
  intro d hd
  rcases List.mem_append.1 hd with hd | hd
  · rw [(List.mem_replicate.1 hd).2]
    decide
  · exact hs d hd

/-- An identifier character breaks no line. -/
theorem isIdChar_ne_break {c : Char} (h : isIdChar c = true) : c ≠ '\n' ∧ c ≠ '\r' :=
  ⟨ne_of_isIdChar h (by decide), ne_of_isIdChar h (by decide)⟩

/-! ## The header -/

/-- A header line is read as a header with its direction. -/
theorem classify_headerLine (direction : Direction) :
    Line.classify (headerLine direction).toList = .header headerKeyword (some direction.token) := by
  cases direction <;> decide

/-- A header line is one that a printer writes. -/
theorem isWrittenLine_headerLine (direction : Direction) : IsWrittenLine (headerLine direction).toList := by
  refine ⟨⟨0, _, rfl, 'f', ("lowchart " ++ direction.token).toList, ?_, by decide⟩, ?_⟩
  · cases direction <;> rfl
  · cases direction <;> exact List.all_iff_forall_prop.1 (by decide)

/-! ## Nodes -/

/-- The characters of the line of a node. -/
theorem toList_nodeLine (id label : String) (shape : Shape) :
    (nodeLine id label shape).toList =
      id.toList ++ (shape.opener.toList ++ ('"' :: (Label.escape label).toList ++ '"' :: shape.closer.toList)) := by
  simp [nodeLine]

/-- The characters of brackets break no line. -/
theorem bracket_ne_break (shape : Shape) :
    ∀ c ∈ shape.opener.toList ++ shape.closer.toList, c ≠ '\n' ∧ c ≠ '\r' := by
  cases shape <;> exact List.all_iff_forall_prop.1 (by decide)

/-- An opening bracket begins with a character that is in no keyword and ends no word. -/
theorem exists_opener (shape : Shape) :
    ∃ o os, shape.opener.toList = o :: os ∧ isIdChar o = false ∧ o ≠ '-' ∧ Line.isWordEnd o = false := by
  cases shape <;> exact ⟨_, _, rfl, by decide, by decide, by decide⟩

/-- The line of a node is one that a printer writes. -/
theorem isWrittenLine_nodeLine {id : String} (hid : IsWord id) (label : String) (shape : Shape) (depth : Nat) :
    IsWrittenLine (indented depth (nodeLine id label shape)).toList := by
  refine isWrittenLine_indented depth (by rw [toList_nodeLine]; exact hid.startsWithIdChar _) ?_
  intro d hd
  rw [toList_nodeLine] at hd
  simp only [List.mem_append, List.mem_cons, List.cons_append] at hd
  rcases hd with hd | hd | rfl | hd | rfl | hd
  · exact isIdChar_ne_break (hid.2 d hd)
  · exact bracket_ne_break shape d (List.mem_append_left _ hd)
  · decide
  · exact (Label.mem_escape hd).2
  · decide
  · exact bracket_ne_break shape d (List.mem_append_right _ hd)

/-- The line of a node as a statement. -/
def nodeStatement (id label : String) (shape : Shape) : Statement :=
  ⟨⟨⟨id, some ⟨shape.normalized, Label.escape label, true⟩, 1⟩, []⟩, []⟩

/-- The line of a node spells its statement. -/
theorem text_nodeStatement (id label : String) (shape : Shape) :
    (nodeStatement id label shape).text = (nodeLine id label shape).toList := by
  simp [nodeStatement, Statement.text, NodeGroup.text, NodeRef.text, ShapeSpan.text, nodeLine]

/-- The statement of a node can be written. -/
theorem isWritable_nodeStatement {id : String} (hid : IsWord id) (label : String) (shape : Shape) :
    (nodeStatement id label shape).IsWritable := by
  have hshape : shape.normalized ≠ .ellipse := by cases shape <;> decide
  have hspan : ShapeSpan.IsWritable ⟨shape.normalized, Label.escape label, true⟩ :=
    ⟨hshape, rfl, fun h => (Label.mem_escape h).1 rfl⟩
  refine ⟨?_, ?_⟩
  · rw [nodeStatement, Statement.refs_single, List.forall_mem_singleton]
    exact ⟨hid, by simpa using hspan⟩
  · simp [nodeStatement, Statement.links]

/-- The line of a node is a statement, whatever its id and its label: the bracket is part of the first word, so the first word
is no keyword. -/
theorem classify_nodeLine {id : String} (hid : IsWord id) (label : String) (shape : Shape) (depth : Nat) :
    Line.classify (indented depth (nodeLine id label shape)).toList = .statement (nodeLine id label shape).toList := by
  obtain ⟨o, os, ho, hoId, hoDash, hoEnd⟩ := exists_opener shape
  have hmem : o ∈ Line.firstWord (nodeLine id label shape).toList := by
    rw [toList_nodeLine, Line.firstWord, List.takeWhile_append_of_pos
      (fun d hd => by simp [Line.isWordEnd_of_isIdChar (hid.2 d hd)]), ho]
    simp [hoEnd]
  have hword : String.ofList (Line.firstWord (nodeLine id label shape).toList) ∉ lineKeywords := by
    intro hk
    rcases Line.mem_lineKeyword hk o (by rwa [String.toList_ofList]) with h | h
    · simp [h] at hoId
    · exact hoDash h
  have hclose : (nodeLine id label shape).toList ≠ groupCloseLine.toList := by
    intro heq
    rw [heq] at hmem
    have hall : ∀ d ∈ Line.firstWord groupCloseLine.toList, isIdChar d = true := List.all_iff_forall_prop.1 (by decide)
    simp [hall o hmem] at hoId
  rw [toList_indented]
  rw [← text_nodeStatement] at hword hclose ⊢
  exact Statement.classify_text (isWritable_nodeStatement hid label shape) hword hclose _

/-- The line of a node declares the node, with the written form of its label. -/
theorem parse_nodeLine {id : String} (hid : IsWord id) (label : String) (shape : Shape) :
    Statement.parse (nodeLine id label shape).toList =
      .ok ⟨⟨⟨id, some ⟨shape.normalized, Label.escape label, true⟩, 1⟩, []⟩, []⟩ := by
  have hq : '"' ∉ (Label.escape label).toList := fun h => (Label.mem_escape h).1 rfl
  obtain ⟨q, hread⟩ := Statement.readRef_quoted 0 [] (by simp) hid shape hq []
  simp only [List.append_nil, List.nil_append, List.length_nil, Nat.add_zero, Nat.zero_add,
    String.ofList_toList] at hread
  rw [Statement.parse, toList_nodeLine]
  exact Statement.readFrom_last hread (by simp [Cursor.skipBlanks, Cursor.advance])

/-! ## Groups -/

/-- The title that the line of a group carries. -/
def groupTitle (id label : String) : List Char :=
  id.toList ++ '[' :: ('"' :: (Label.escape label).toList ++ ['"', ']'])

/-- The characters of the line that opens a group. -/
theorem toList_groupOpenLine (id label : String) :
    (groupOpenLine id label).toList = "subgraph".toList ++ ' ' :: groupTitle id label := by
  simp [groupOpenLine, groupTitle]

/-- The title of a group ends with its bracket, with more in front or not. -/
theorem getLast?_groupTitle (front : List Char) (id label : String) :
    (front ++ groupTitle id label).getLast? = some ']' := by
  have hconcat : front ++ groupTitle id label =
      (front ++ id.toList ++ '[' :: ('"' :: (Label.escape label).toList ++ ['"'])) ++ [']'] := by
    simp [groupTitle]
  rw [hconcat, List.getLast?_append_of_ne_nil _ (by simp)]
  rfl

/-- The title of a group has no blank at either end. -/
theorem isTrimmed_groupTitle {id : String} (hid : IsWord id) (label : String) : IsTrimmed (groupTitle id label) := by
  refine ⟨(hid.startsWithIdChar _).head, ?_⟩
  rw [← List.nil_append (groupTitle id label), getLast?_groupTitle]
  simp
  decide

/-- A line that opens a group is one that a printer writes. -/
theorem isWrittenLine_groupOpenLine {id : String} (hid : IsWord id) (label : String) (depth : Nat) :
    IsWrittenLine (indented depth (groupOpenLine id label)).toList := by
  refine isWrittenLine_indented depth ⟨'s', _, toList_groupOpenLine id label, by decide⟩ ?_
  intro d hd
  rw [toList_groupOpenLine, groupTitle] at hd
  simp only [List.mem_append, List.mem_cons, List.cons_append, List.not_mem_nil, or_false] at hd
  rcases hd with hd | rfl | hd | rfl | rfl | hd | rfl | rfl
  · have hall : ∀ c ∈ "subgraph".toList, c ≠ '\n' ∧ c ≠ '\r' := List.all_iff_forall_prop.1 (by decide)
    exact hall d hd
  · decide
  · exact isIdChar_ne_break (hid.2 d hd)
  · decide
  · decide
  · exact (Label.mem_escape hd).2
  · decide
  · decide

/-- The line that opens a group, whatever its label. -/
theorem classify_groupOpenLine {id : String} (hid : IsWord id) (label : String) (depth : Nat) :
    Line.classify (indented depth (groupOpenLine id label)).toList = .groupOpen (groupTitle id label) := by
  have hlast : ∀ c ∈ (groupTitle id label).getLast?, c ≠ ';' := by
    rw [← List.nil_append (groupTitle id label), getLast?_groupTitle]
    simp
  have hends : ∀ c ∈ "subgraph".toList, Line.isWordEnd c = false := List.all_iff_forall_prop.1 (by decide)
  have hstart : StartsWithIdChar ("subgraph".toList ++ ' ' :: groupTitle id label) := ⟨'s', _, rfl, by decide⟩
  have hblank : ∀ d ∈ ("subgraph".toList ++ ' ' :: groupTitle id label).getLast?, isBlank d = false := by
    rw [List.append_cons, getLast?_groupTitle]
    simp
    decide
  rw [toList_indented, toList_groupOpenLine, Line.classify_indented hstart hblank, Line.firstWord_append hends,
    Line.afterFirstWord_append hends (isTrimmed_groupTitle hid label) hlast, String.ofList_toList]
  simp [Line.ofFirstWord, groupCloseLine]

/-- The quotes around a text without quotes are dropped, and nothing else. -/
theorem dropQuotes_quoted {s : List Char} (hq : '"' ∉ s) : Document.dropQuotes ('"' :: s ++ ['"']) = s := by
  have hlast : ∀ c ∈ s.getLast?, (c == '"') = false := by
    intro c hc
    simp only [beq_eq_false_iff_ne, ne_eq]
    rintro rfl
    exact hq (List.mem_of_getLast? hc)
  have hfront : ('"' :: s ++ ['"']).dropWhile (· == '"') = if s = [] then [] else s ++ ['"'] := by
    cases s with
    | nil => rfl
    | cons c cs =>
      have hc : ¬ c = '"' := by
        rintro rfl
        simp at hq
      simp [hc]
  rw [Document.dropQuotes, hfront]
  split
  · rename_i h
    rw [h]
    rfl
  · rw [dropEndWhile_append_of_pos s (by decide), dropEndWhile_eq_self hlast]

/-- The title of a group gives its id and the written form of its label back. -/
theorem groupOfTitle_groupTitle {id : String} (hid : IsWord id) (label : String) :
    Document.groupOfTitle (groupTitle id label) = (id, Label.decode (Label.escape label)) := by
  have hq : '"' ∉ (Label.escape label).toList := fun h => (Label.mem_escape h).1 rfl
  have hn : '\n' ∉ (Label.escape label).toList := fun h => (Label.mem_escape h).2.1 rfl
  have htake : (groupTitle id label).takeWhile isIdChar = id.toList := by
    refine takeWhile_append_stop hid.2 ?_
    simp
    decide
  have hdrop : (groupTitle id label).drop id.toList.length = '[' :: ('"' :: (Label.escape label).toList ++ ['"', ']']) :=
    List.drop_left
  have hstart : trimStart ('[' :: ('"' :: (Label.escape label).toList ++ ['"', ']'])) =
      '[' :: ('"' :: (Label.escape label).toList ++ ['"', ']']) := by
    rw [trimStart, List.dropWhile_cons_of_neg (by decide)]
  have hlast : ('"' :: (Label.escape label).toList ++ ['"', ']']).getLast? = some ']' := by simp [List.getLast?_cons]
  have hinner : ('"' :: (Label.escape label).toList ++ ['"', ']']).dropLast = '"' :: (Label.escape label).toList ++ ['"'] := by
    have : '"' :: (Label.escape label).toList ++ ['"', ']'] = ('"' :: (Label.escape label).toList ++ ['"']) ++ [']'] := by
      simp
    rw [this, List.dropLast_concat]
  have htrim : trim ('"' :: (Label.escape label).toList ++ ['"']) = '"' :: (Label.escape label).toList ++ ['"'] := by
    refine IsTrimmed.trim_eq ⟨?_, ?_⟩
    · simp
      decide
    · rw [List.getLast?_concat]
      simp
      decide
  have hbreak : ('"' :: (Label.escape label).toList ++ ['"', ']']).contains '\n' = false := by simp [hn]
  have hne : id.toList.isEmpty = false := by simpa using hid.1
  simp only [Document.groupOfTitle, htake, hdrop, hstart, hlast, hbreak, hne, hinner, htrim, dropQuotes_quoted hq,
    String.ofList_toList]
  rfl

/-- A line that closes a group is read as such. -/
theorem classify_groupCloseLine : Line.classify (indented 1 groupCloseLine).toList = .groupClose := by
  decide

/-- A line that closes a group is one that a printer writes. -/
theorem isWrittenLine_groupCloseLine : IsWrittenLine (indented 1 groupCloseLine).toList :=
  isWrittenLine_indented 1 ⟨'e', _, rfl, by decide⟩ (List.all_iff_forall_prop.1 (by decide))

/-! ## Edges -/

/-- The label of an edge as it is written, if there is anything left to show. -/
def writtenLabel? (label? : Option String) : Option String := (label?.map Label.sanitize).filter (· != "")

/-- A written label between its pipes. -/
def pipedLabel (label? : Option String) : List Char :=
  (writtenLabel? label?).elim [] fun l => '|' :: l.toList ++ ['|']

/-- A written label is the form between pipes of some label. -/
theorem exists_of_writtenLabel? {label? : Option String} {l : String} (h : writtenLabel? label? = some l) :
    ∃ label, label? = some label ∧ Label.sanitize label = l := by
  rw [writtenLabel?, Option.filter_eq_some_iff] at h
  simpa using h.1

/-- The characters of the line of an edge. -/
theorem toList_edgeLine (source target : String) (label? : Option String) (dashed : Bool) :
    (edgeLine source target label? dashed).toList =
      source.toList ++ ' ' :: ((arrowToken dashed).toList ++ (pipedLabel label? ++ ' ' :: target.toList)) := by
  rw [edgeLine, pipedLabel, writtenLabel?]
  cases (label?.map Label.sanitize).filter (· != "") <;> simp

/-- The line of an edge is one that a printer writes. -/
theorem isWrittenLine_edgeLine {source target : String} (hs : IsWord source) (ht : IsWord target)
    (label? : Option String) (dashed : Bool) (depth : Nat) :
    IsWrittenLine (indented depth (edgeLine source target label? dashed)).toList := by
  refine isWrittenLine_indented depth (by rw [toList_edgeLine]; exact hs.startsWithIdChar _) ?_
  intro d hd
  rw [toList_edgeLine] at hd
  simp only [List.mem_append, List.mem_cons] at hd
  rcases hd with hd | rfl | hd | hd | rfl | hd
  · exact isIdChar_ne_break (hs.2 d hd)
  · decide
  · have hall : ∀ c ∈ (arrowToken dashed).toList, c ≠ '\n' ∧ c ≠ '\r' := by
      cases dashed <;> exact List.all_iff_forall_prop.1 (by decide)
    exact hall d hd
  · rw [pipedLabel] at hd
    cases hl : writtenLabel? label? with
    | none => simp [hl] at hd
    | some l =>
      obtain ⟨label, -, rfl⟩ := exists_of_writtenLabel? hl
      simp only [hl, Option.elim_some, List.mem_append, List.mem_cons, List.cons_append, List.not_mem_nil,
        or_false] at hd
      rcases hd with rfl | hd | rfl
      · decide
      · exact (Label.mem_sanitize hd).2
      · decide
  · decide
  · exact isIdChar_ne_break (ht.2 d hd)

/-- The line of an edge as a statement. -/
def edgeStatement (source target : String) (label? : Option String) (dashed : Bool) : Statement :=
  ⟨⟨⟨source, none, 0⟩, []⟩, [(⟨Statement.arrowStyle dashed, writtenLabel? label?, 0⟩, ⟨⟨target, none, 0⟩, []⟩)]⟩

/-- The line of an edge spells its statement. -/
theorem text_edgeStatement (source target : String) (label? : Option String) (dashed : Bool) :
    (edgeStatement source target label? dashed).text = (edgeLine source target label? dashed).toList := by
  have harrow : (Statement.arrowStyle dashed == Arrow.dashed) = dashed := by cases dashed <;> rfl
  simp [toList_edgeLine, edgeStatement, Statement.text, NodeGroup.text, NodeRef.text, Link.text, pipedLabel, harrow]

/-- The statement of an edge can be written. -/
theorem isWritable_edgeStatement {source target : String} (hs : IsWord source) (ht : IsWord target)
    (label? : Option String) (dashed : Bool) : (edgeStatement source target label? dashed).IsWritable := by
  have harrow : Statement.arrowStyle dashed ≠ .other := by cases dashed <;> decide
  have hlink : Link.IsWritable ⟨Statement.arrowStyle dashed, writtenLabel? label?, 0⟩ := by
    refine ⟨harrow, fun l hl => ?_⟩
    obtain ⟨label, -, rfl⟩ := exists_of_writtenLabel? hl
    exact ⟨Label.isTrimmed_sanitize label, fun h => (Label.mem_sanitize h).1 rfl⟩
  have hbare : ∀ {id : String}, IsWord id → NodeRef.IsWritable ⟨id, none, 0⟩ := fun hid => ⟨hid, by simp⟩
  refine ⟨?_, ?_⟩
  · have hrefs : (edgeStatement source target label? dashed).refs = [⟨source, none, 0⟩, ⟨target, none, 0⟩] := by
      simp [edgeStatement, Statement.refs, Statement.groups, NodeGroup.refs]
    rw [hrefs, List.forall_mem_cons, List.forall_mem_singleton]
    exact ⟨hbare hs, hbare ht⟩
  · rw [edgeStatement, Statement.links, List.map_singleton, List.forall_mem_singleton]
    exact hlink

/-- The line of an edge is a statement, if its source is no keyword. -/
theorem classify_edgeLine {source target : String} (hs : IsWord source) (ht : IsWord target)
    (hk : source ∉ lineKeywords) (label? : Option String) (dashed : Bool) (depth : Nat) :
    Line.classify (indented depth (edgeLine source target label? dashed)).toList =
      .statement (edgeLine source target label? dashed).toList := by
  have hends : ∀ d ∈ source.toList, Line.isWordEnd d = false := fun d hd => Line.isWordEnd_of_isIdChar (hs.2 d hd)
  have hword : String.ofList (Line.firstWord (edgeLine source target label? dashed).toList) ∉ lineKeywords := by
    rwa [toList_edgeLine, Line.firstWord_append hends, String.ofList_toList]
  have hclose : (edgeLine source target label? dashed).toList ≠ groupCloseLine.toList := by
    intro heq
    rw [← text_edgeStatement] at heq
    exact List.cons_ne_nil _ _ (Statement.steps_eq_nil_of_text_eq heq)
  rw [toList_indented]
  rw [← text_edgeStatement] at hword hclose ⊢
  exact Statement.classify_text (isWritable_edgeStatement hs ht label? dashed) hword hclose _

/-- The line of an edge links its two ends, with the written form of its label: what is a statement of one link without its
columns is one with them. -/
theorem parse_edgeLine {source target : String} (hs : IsWord source) (ht : IsWord target)
    (label? : Option String) (dashed : Bool) :
    ∃ i k n, Statement.parse (edgeLine source target label? dashed).toList =
      .ok ⟨⟨⟨source, none, i⟩, []⟩,
        [(⟨Statement.arrowStyle dashed, writtenLabel? label?, k⟩, ⟨⟨target, none, n⟩, []⟩)]⟩ := by
  obtain ⟨s, hparse, hsame⟩ := Statement.parse_text (isWritable_edgeStatement hs ht label? dashed)
  rw [text_edgeStatement] at hparse
  obtain ⟨⟨⟨source', span?, i⟩, more⟩, steps⟩ := s
  simp only [edgeStatement, Statement.unplaced, NodeGroup.unplaced, NodeRef.unplaced, Statement.mk.injEq,
    NodeGroup.mk.injEq, NodeRef.mk.injEq, and_true, List.map_nil, List.map_cons, List.map_eq_nil_iff,
    List.map_eq_singleton_iff] at hsame
  obtain ⟨⟨⟨rfl, rfl⟩, rfl⟩, ⟨⟨arrow, l?, k⟩, ⟨⟨target', span?, n⟩, more⟩⟩, rfl, hstep⟩ := hsame
  simp only [Link.unplaced, Prod.mk.injEq, Link.mk.injEq, NodeGroup.mk.injEq, NodeRef.mk.injEq, and_true,
    List.map_eq_nil_iff] at hstep
  obtain ⟨⟨rfl, rfl⟩, ⟨rfl, rfl⟩, rfl⟩ := hstep
  exact ⟨i, k, n, hparse⟩

end Whiteboard
