import Whiteboard.Proofs.Diagram.Content
import Whiteboard.Proofs.Ids.Nodes

/-!
# Documents hold together

Main statement: whatever a text is, what it reads as holds together (`Document.parse_coherent`). The nodes are those that the
statements refer to, each once and on the line that refers to it first; edges and declarations are about nodes; a node is
declared if some declaration is about it, and then the first such declaration says what is known of it, its group being the
innermost one that is open there. So the check of ids finds the ends of every edge.

All of it follows from the lines that a document reflects (`Document.Reading.Reflects`) and from what holds of every document
that is read (`Document.WellFormed`).
-/

namespace Whiteboard

namespace Document

/-- A document that holds together and agrees with the lines of its text. -/
structure IsCoherent (doc : Document) (lines : List NumberedLine) : Prop where
  nodes_nodup : doc.nodeIds.Nodup
  mem_nodeIds_iff : ∀ id, id ∈ doc.nodeIds ↔ ∃ line ∈ lines, line.mentions id = true
  edge_ends : ∀ e ∈ doc.edges, e.source ∈ doc.nodeIds ∧ e.target ∈ doc.nodeIds
  declaration_id : ∀ d ∈ doc.declarations, d.id ∈ doc.nodeIds
  isDeclared_iff : ∀ n ∈ doc.nodes, n.isDeclared = true ↔ ∃ d ∈ doc.declarations, d.id = n.id
  label?_isSome : ∀ n ∈ doc.nodes, n.label?.isSome = n.isDeclared
  /-- What the first declaration of a node says, and the innermost group that is open at its line. -/
  declared : ∀ n ∈ doc.nodes, ∀ d, doc.declarations.find? (·.id == n.id) = some d →
    (∃ line ∈ lines, d ∈ line.declarations ∧ line.number = d.line) ∧
      n.label? = some d.label ∧ n.shape = d.shape ∧ n.group? = (groupsAt lines d.line).head?
  group_listed : ∀ n ∈ doc.nodes, ∀ g ∈ n.group?, g ∈ doc.groupIds
  undeclared : ∀ n ∈ doc.nodes, n.isDeclared = false → n.shape = .rectangle ∧ n.group? = none
  /-- A node is on the first line that reads as a statement and refers to it. -/
  firstLine : ∀ n ∈ doc.nodes, (lines.find? (·.mentions n.id)).map (·.number) = some n.line

variable {doc : Document} {lines : List NumberedLine}

/-- Where ids are distinct, a node found by its id is the node. -/
theorem firstLineIn?_eq (hnodup : doc.nodeIds.Nodup) {n : Node} (hn : n ∈ doc.nodes) :
    firstLineIn? doc.nodes n.id = some n.line :=
  congrArg (Option.map fun m : Node => m.line) (node?_of_mem hnodup hn)

/-- What is found for an id are the details of its node. -/
theorem detailsIn?_eq (hnodup : doc.nodeIds.Nodup) {n : Node} (hn : n ∈ doc.nodes) :
    detailsIn? doc.nodes n.id = n.details? :=
  congrArg (fun found : Option Node => found.bind fun m => m.details?) (node?_of_mem hnodup hn)

namespace Reading.Reflects

variable {r : Reading}

/-- The nodes are those that some line refers to. -/
theorem mem_nodeIds_iff (h : r.Reflects lines) (id : String) :
    id ∈ r.document.nodeIds ↔ ∃ line ∈ lines, line.mentions id = true := by
  have hline := congrArg Option.isSome (h.firstLine id)
  rw [firstLineIn?, Option.isSome_map, Option.isSome_map] at hline
  have hnode := node?_isSome r.document id
  rw [node?, hline] at hnode
  rw [← List.contains_iff_mem, ← hnode, List.find?_isSome]

/-- What is known of a node is what its first declaration says. -/
theorem details?_eq (h : r.Reflects lines) (hnodup : r.document.nodeIds.Nodup) {n : Node} (hn : n ∈ r.document.nodes) :
    n.details? = (r.document.declarations.find? (·.id == n.id)).map fun d => d.details (groupsAt lines d.line).head? := by
  rw [← detailsIn?_eq hnodup hn, h.details]

/-- A declaration is about a node that its line refers to. -/
theorem declaration_mentions (h : r.Reflects lines) {d : Declaration} (hd : d ∈ r.document.declarations) :
    ∃ line ∈ lines, d ∈ line.declarations ∧ line.number = d.line ∧ line.mentions d.id = true := by
  rw [h.declarations] at hd
  obtain ⟨line, hline, hd⟩ := List.mem_flatMap.1 hd
  obtain ⟨ref, href, hdeclared⟩ := List.mem_filterMap.1 hd
  obtain ⟨hid, hnumber⟩ := id_of_declarationOf? hdeclared
  exact ⟨line, hline, hd, hnumber.symm, List.any_eq_true.2 ⟨ref, href, by simp [hid]⟩⟩

/-- What reflects lines and is well-formed holds together. -/
theorem isCoherent {p : Char → Prop} (h : r.Reflects lines) (hdoc : r.document.WellFormed p) :
    r.document.IsCoherent lines := by
  have hdetails : ∀ n ∈ r.document.nodes, n.details? =
      (r.document.declarations.find? (·.id == n.id)).map fun d => d.details (groupsAt lines d.line).head? :=
    fun n hn => h.details?_eq hdoc.nodes_nodup hn
  constructor
  case nodes_nodup => exact hdoc.nodes_nodup
  case mem_nodeIds_iff => exact h.mem_nodeIds_iff
  case edge_ends => exact hdoc.edge_ends
  case declaration_id =>
    intro d hd
    obtain ⟨line, hline, -, -, hmentions⟩ := h.declaration_mentions hd
    exact (h.mem_nodeIds_iff d.id).2 ⟨line, hline, hmentions⟩
  case isDeclared_iff =>
    intro n hn
    rw [Node.isDeclared, hdetails n hn, Option.isSome_map, List.find?_isSome]
    simp
  case label?_isSome =>
    intro n _
    rw [Node.label?, Option.isSome_map, Node.isDeclared]
  case declared =>
    intro n hn d hd
    obtain ⟨line, hline, hmem, hnumber, -⟩ := h.declaration_mentions (List.mem_of_find?_eq_some hd)
    have hsome := hdetails n hn
    rw [hd, Option.map_some] at hsome
    refine ⟨⟨line, hline, hmem, hnumber⟩, ?_, ?_, ?_⟩
    · rw [Node.label?, hsome]
      rfl
    · rw [Node.shape, hsome]
      rfl
    · rw [Node.group?, hsome]
      rfl
  case group_listed => exact fun n hn => hdoc.group?_listed hn
  case undeclared =>
    intro n _ hnone
    rw [Node.isDeclared, Option.isSome_eq_false_iff, Option.isNone_iff_eq_none] at hnone
    rw [Node.shape, Node.group?, hnone]
    exact ⟨rfl, rfl⟩
  case firstLine =>
    intro n hn
    rw [← h.firstLine, firstLineIn?_eq hdoc.nodes_nodup hn]

end Reading.Reflects

/-- Every text reads as a document that holds together. -/
theorem isCoherent_parse (text : String) : (parse text).IsCoherent (Body.ofText text.toList).lines := by
  obtain ⟨r, hr, hreflects⟩ := reflects_parse text
  have hdoc := wellFormed_parse_any text
  rw [← hr] at hdoc ⊢
  exact hreflects.isCoherent hdoc

end Document

namespace Ids

/-! ## The check of ids -/

/-- A node that is declared twice is reported as such. -/
theorem code_of_mem_duplicateErrors {before : List String} {ds : List Document.Declaration} {e : Error}
    (h : e ∈ duplicateErrors before ds) : e.code = .duplicateLocal := by
  induction ds generalizing before with
  | nil => cases h
  | cons d rest ih =>
    rw [duplicateErrors, List.mem_append] at h
    rcases h with h | h
    · split at h
      · rw [List.mem_singleton.1 h]
        rfl
      · cases h
    · exact ih h

/-- A label that is used twice is reported as such. -/
theorem code_of_mem_labelErrors {options : Options} {before : List (String × String)} {ds : List Document.Declaration}
    {e : Error} (h : e ∈ labelErrors options before ds) : e.code = .ambiguousLabel := by
  induction ds generalizing before with
  | nil => cases h
  | cons d rest ih =>
    rw [labelErrors] at h
    split at h
    · exact ih h
    · split at h
      · exact ih h
      · rcases List.mem_cons.1 h with rfl | h
        · rfl
        · exact ih h

/-- An edge without a free id is reported as such. -/
theorem code_of_mem_synthesize {ids : EdgeIds} {edges : List Document.Edge} {e : Error}
    (h : e ∈ (synthesize ids edges).2) : e.code = .unresolvable := by
  induction edges generalizing ids with
  | nil => cases h
  | cons edge rest ih =>
    rw [synthesize] at h
    split at h
    · exact ih h
    · rcases List.mem_cons.1 h with rfl | h
      · rfl
      · exact ih h

/-- An edge without its node is reported as such. -/
theorem code_of_mem_endpointErrors {options : Options} {doc : Document} {edge : Document.Edge} {e : Error}
    (h : e ∈ endpointErrors options doc edge) : e.code = .missingNode := by
  simp only [endpointErrors, List.mem_append] at h
  rcases h with h | h <;> split at h
  · cases h
  · rw [List.mem_singleton.1 h]
    rfl
  · cases h
  · rw [List.mem_singleton.1 h]
    rfl

/-- The ends of an edge are found where they are nodes of the document. -/
theorem endpointErrors_eq_nil (options : Options) {doc : Document} {e : Document.Edge}
    (h : e.source ∈ doc.nodeIds ∧ e.target ∈ doc.nodeIds) : endpointErrors options doc e = [] := by
  have hfound : ∀ id ∈ doc.nodeIds, (doc.node? id).isSome = true := by
    intro id hid
    rw [Document.node?_isSome, List.contains_iff_mem]
    exact hid
  simp only [endpointErrors, hfound _ h.1, hfound _ h.2, Bool.true_or, if_true, List.append_nil]

/-- No end of an edge is missing in a document whose edges join its nodes. -/
theorem code_ne_of_edge_ends {doc : Document} (hends : ∀ e ∈ doc.edges, e.source ∈ doc.nodeIds ∧ e.target ∈ doc.nodeIds)
    {read : PatternReader} {options : Options} {e : Error} (h : e ∈ (checkDocumentBy read options doc).errors) :
    e.code ≠ .missingNode := by
  have hnone : doc.edges.flatMap (endpointErrors options doc) = [] :=
    List.flatMap_eq_nil_iff.2 fun edge hedge => endpointErrors_eq_nil options (hends edge hedge)
  simp only [checkDocumentBy, hnone, List.append_nil, List.mem_append] at h
  rcases h with ((h | h) | h) | h
  · rcases code_of_mem_checkNodes h with h | h | h <;> rw [h] <;> nofun
  · rw [code_of_mem_duplicateErrors h]
    nofun
  · rw [code_of_mem_labelErrors h]
    nofun
  · split at h
    · rw [code_of_mem_synthesize h]
      nofun
    · cases h

end Ids

/-- Every text reads as a document that holds together: node ids are distinct, edges and declarations are about nodes, a node
is declared if some declaration is about it, and has a label then, which is that of its first declaration, as is its shape,
while its group is the innermost one that is open there, one of the groups of the document; without a declaration it is a
rectangle in no group; and its line is that of the first statement that refers to it. So no check of ids misses the end of an
edge. -/
theorem Document.parse_coherent (text : String) :
    (parse text).IsCoherent (Body.ofText text.toList).lines ∧
    ∀ options, ∀ e ∈ (Ids.check options text).errors, e.code ≠ .missingNode := by
  have hcoherent := isCoherent_parse text
  exact ⟨hcoherent, fun _ _ he => Ids.code_ne_of_edge_ends hcoherent.edge_ends he⟩

end Whiteboard
