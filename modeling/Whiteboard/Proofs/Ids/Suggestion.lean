import Whiteboard.Proofs.Ids.Numbered
import Whiteboard.Proofs.Validation.Coherence

/-!
# Suggested names

A declared node that is on the canvas already is suggested another name: the first numbered variant of its id that is neither
on the canvas nor in the document nor suggested before (`IsFirstFree`). A further suggestion keeps all that is known of those
before (`IsNaming.concat`), so it is known of all suggestions of a check (`checkNodes_names`).

Main statement: the suggestions are for the nodes that collide, with one error each, and following all of them at once leaves a
document whose nodes have different ids and in which no node collides any more (`checkBy_renames`).
-/

namespace Whiteboard

/-- The document with other ids for its nodes, in edges and declarations too. -/
def Document.rename (name : String → String) (doc : Document) : Document :=
  { doc with
    nodes := doc.nodes.map fun n => { n with id := name n.id }
    edges := doc.edges.map fun e => { e with source := name e.source, target := name e.target }
    declarations := doc.declarations.map fun d => { d with id := name d.id } }

/-- Renaming the nodes of a document renames its ids. -/
theorem Document.nodeIds_rename (name : String → String) (doc : Document) :
    (doc.rename name).nodeIds = doc.nodeIds.map name := by
  simp [nodeIds, rename]

namespace Ids

/-! ## One suggestion -/

/-- A name is the numbered variant of an id with the least number from two on that is not taken. -/
structure IsFirstFree (taken : List String) (id name : String) : Prop where
  free : name ∉ taken
  least : ∃ n, 2 ≤ n ∧ name = renamed id n ∧ ∀ m, 2 ≤ m → m < n → renamed id m ∈ taken

/-- The search for a name always ends with one. -/
theorem isFirstFree_freshName (taken : List String) (id : String) : IsFirstFree taken id (freshName taken id) := by
  have hinjective : Function.Injective fun k => renamed id (k + 2) :=
    fun i j hij => Nat.add_right_cancel (renamed_injective id hij)
  obtain ⟨k, hfound, hfree, hbefore⟩ := exists_find?_range hinjective taken
  have hname : freshName taken id = renamed id (k + 2) := by rw [freshName, hfound, Option.getD_some]
  refine ⟨hname ▸ hfree, k + 2, by omega, hname, fun m hlow hm => ?_⟩
  obtain ⟨j, rfl⟩ := Nat.exists_eq_add_of_le' hlow
  exact hbefore j (by omega)

/-! ## Suggestions in turn -/

/-- Names suggested in turn: all different, none of them on the canvas or in the document, and each the first that is free at
its turn. -/
structure IsNaming (options : Options) (nodeIds : List String) (names : List (String × String)) : Prop where
  nodup : (names.map (·.2)).Nodup
  unused : ∀ name ∈ names.map (·.2), name ∉ options.usedNodeIds ∧ name ∉ nodeIds
  first : ∀ i id name, names[i]? = some (id, name) → IsFirstFree (takenNames options nodeIds (names.take i)) id name

variable {read : PatternReader} {options : Options} {nodeIds : List String} {names : List (String × String)}

theorem isNaming_nil : IsNaming options nodeIds [] :=
  ⟨List.nodup_nil, by simp, by simp⟩

/-- One more suggestion. -/
theorem IsNaming.concat (h : IsNaming options nodeIds names) {id name : String}
    (hname : IsFirstFree (takenNames options nodeIds names) id name) :
    IsNaming options nodeIds (names ++ [(id, name)]) := by
  have hfree := hname.free
  rw [takenNames, List.mem_append, List.mem_append, not_or, not_or] at hfree
  constructor
  case nodup =>
    rw [List.map_append, List.map_singleton]
    refine List.nodup_append.2 ⟨h.nodup, List.nodup_singleton name, ?_⟩
    rintro x hx y hy rfl
    rw [List.mem_singleton.1 hy] at hx
    exact hfree.2 hx
  case unused =>
    intro x hx
    rw [List.map_append, List.mem_append, List.map_singleton, List.mem_singleton] at hx
    rcases hx with hx | rfl
    · exact h.unused x hx
    · exact hfree.1
  case first =>
    intro i key x hi
    rcases Nat.lt_trichotomy i names.length with hlt | rfl | hgt
    · rw [List.getElem?_append_left hlt] at hi
      rw [List.take_append_of_le_length (by omega)]
      exact h.first i key x hi
    · rw [List.getElem?_concat_length] at hi
      cases hi
      rwa [List.take_left]
    · rw [List.getElem?_eq_none (by simp; omega)] at hi
      cases hi

/-- Errors with other codes are left out. -/
theorem filter_code_eq_nil {code : Code} {errors : List Error} (h : ∀ e ∈ errors, e.code ≠ code) :
    errors.filter (·.code == code) = [] := by
  rw [List.filter_eq_nil_iff]
  exact fun e he => by simpa using h e he

/-- The suggestions of a check of nodes: one for each node that collides, and one error for each that quotes it. -/
theorem checkNodes_names (h : IsNaming options nodeIds names) (nodes : List Document.Node) :
    ∃ new, (checkNodes read options nodeIds names nodes).2 = names ++ new ∧
      new.map (·.1) = (nodes.filter options.collides).map (·.id) ∧
      ((checkNodes read options nodeIds names nodes).1.filter (·.code == .collisionExisting)).map (fun e => (e.id, e.fault)) =
        new.map (fun n => (n.1, .onCanvas n.2)) ∧
      IsNaming options nodeIds (names ++ new) := by
  induction nodes generalizing names with
  | nil => exact ⟨[], by simp [checkNodes], rfl, rfl, by simpa using h⟩
  | cons node rest ih =>
    have hnone : (idErrors read options node).filter (·.code == .collisionExisting) = [] := by
      refine filter_code_eq_nil fun e he => ?_
      rcases code_of_mem_idErrors he with hcode | hcode <;> rw [hcode] <;> decide
    rw [checkNodes_cons]
    by_cases hcollides : options.collides node = true
    · obtain ⟨new, hall, hkeys, herrors, hnaming⟩ := ih (h.concat (isFirstFree_freshName _ node.id))
      rw [if_pos hcollides, List.filter_cons_of_pos hcollides, List.filter_append, hnone, List.nil_append,
        List.filter_cons_of_pos rfl]
      refine ⟨(node.id, freshName (takenNames options nodeIds names) node.id) :: new, ?_, ?_, ?_, ?_⟩
      · simpa using hall
      · rw [List.map_cons, List.map_cons, hkeys]
      · rw [List.map_cons, List.map_cons, herrors]
      · simpa using hnaming
    · obtain ⟨new, hall, hkeys, herrors, hnaming⟩ := ih h
      rw [if_neg hcollides, List.filter_cons_of_neg hcollides, List.filter_append, hnone, List.nil_append]
      exact ⟨new, hall, hkeys, herrors, hnaming⟩

/-! ## All suggestions at once -/

/-- The name of a node after all suggestions are followed. -/
def Report.nameOf (report : Report) (id : String) : String := (report.renames.lookup id).getD id

/-- The suggestions in a report on a document. -/
structure Report.Suggests (report : Report) (options : Options) (doc : Document) : Prop where
  /-- There is a suggestion for each node that collides and for no other. -/
  keys : report.renames.map (·.1) = (doc.nodes.filter options.collides).map (·.id)
  /-- For each suggestion there is one error that quotes it, and there is no other error of that kind. -/
  errors : (report.errors.filter (·.code == .collisionExisting)).map (fun e => (e.id, e.fault)) =
    report.renames.map fun n => (n.1, .onCanvas n.2)
  naming : IsNaming options doc.nodeIds report.renames

/-- Only the check of nodes finds ids on the canvas. -/
theorem filter_collisions (read : PatternReader) (options : Options) (doc : Document) :
    (checkDocumentBy read options doc).errors.filter (·.code == .collisionExisting) =
      (checkNodes read options doc.nodeIds [] doc.nodes).1.filter (·.code == .collisionExisting) := by
  have hduplicates : (duplicateErrors [] doc.declarations).filter (·.code == .collisionExisting) = [] :=
    filter_code_eq_nil fun e he => by rw [code_of_mem_duplicateErrors he]; decide
  have hlabels : (labelErrors options [] doc.declarations).filter (·.code == .collisionExisting) = [] :=
    filter_code_eq_nil fun e he => by rw [code_of_mem_labelErrors he]; decide
  have hends : (doc.edges.flatMap (endpointErrors options doc)).filter (·.code == .collisionExisting) = [] := by
    refine filter_code_eq_nil fun e he => ?_
    obtain ⟨edge, -, he⟩ := List.mem_flatMap.1 he
    rw [code_of_mem_endpointErrors he]
    decide
  have hedges : (if options.synthesizeEdgeIds then synthesize ⟨options.usedEdgeIds, [], []⟩ doc.edges
      else ([], [])).2.filter (·.code == .collisionExisting) = [] := by
    refine filter_code_eq_nil fun e he => ?_
    split at he
    · rw [code_of_mem_synthesize he]
      decide
    · cases he
  simp only [checkDocumentBy, List.filter_append, hduplicates, hlabels, hends, hedges, List.append_nil]

/-- What a check suggests. -/
theorem checkDocumentBy_suggests (read : PatternReader) (options : Options) (doc : Document) :
    (checkDocumentBy read options doc).Suggests options doc := by
  have hnil : IsNaming options doc.nodeIds [] := isNaming_nil
  obtain ⟨new, hall, hkeys, herrors, hnaming⟩ := checkNodes_names hnil doc.nodes
  have hrenames : (checkDocumentBy read options doc).renames = new := hall
  constructor
  case keys => rw [hrenames, hkeys]
  case errors => rw [hrenames, filter_collisions, herrors]
  case naming => rwa [hrenames]

/-- Names under which no node collides and no two nodes are alike. -/
structure Report.Resolves (report : Report) (read : PatternReader) (options : Options) (doc : Document) : Prop where
  nodup : (doc.rename report.nameOf).nodeIds.Nodup
  free : ∀ n ∈ (doc.rename report.nameOf).nodes, options.collides n = false
  /-- A second check finds no id on the canvas. -/
  checked : ∀ e ∈ (checkDocumentBy read options (doc.rename report.nameOf)).errors, e.code ≠ .collisionExisting

namespace Report.Suggests

variable {report : Report} {doc : Document}

/-- A node that does not collide keeps its id, and one that collides gets a suggested name. -/
theorem nameOf_cases (h : report.Suggests options doc) (hnodup : doc.nodeIds.Nodup) {n : Document.Node} (hn : n ∈ doc.nodes) :
    options.collides n = false ∧ report.nameOf n.id = n.id ∨
    options.collides n = true ∧ (n.id, report.nameOf n.id) ∈ report.renames := by
  have hkey : n.id ∈ report.renames.map (·.1) ↔ options.collides n = true := by
    rw [h.keys, List.mem_map]
    refine ⟨?_, fun hcollides => ⟨n, List.mem_filter.2 ⟨hn, hcollides⟩, rfl⟩⟩
    rintro ⟨m, hm, hid⟩
    obtain ⟨hm, hcollides⟩ := List.mem_filter.1 hm
    rwa [← List.inj_on_of_nodup_map hnodup hm hn hid]
  cases hlookup : report.renames.lookup n.id with
  | none =>
    refine Or.inl ⟨?_, by rw [nameOf, hlookup]; rfl⟩
    rw [← Bool.not_eq_true, ← hkey]
    rintro hmem
    obtain ⟨entry, hentry, hid⟩ := List.mem_map.1 hmem
    have hnot := List.lookup_eq_none_iff.1 hlookup entry hentry
    simp [hid] at hnot
  | some name =>
    obtain ⟨front, back, hsplit, -⟩ := List.lookup_eq_some_iff.1 hlookup
    have hmem : (n.id, name) ∈ report.renames := by rw [hsplit]; simp
    exact Or.inr ⟨hkey.1 (List.mem_map.2 ⟨_, hmem, rfl⟩), by rwa [nameOf, hlookup]⟩

/-- The id of a node is no suggested name. -/
theorem name_ne_id (h : report.Suggests options doc) {n : Document.Node} (hn : n ∈ doc.nodes) {id name : String}
    (hname : (id, name) ∈ report.renames) : name ≠ n.id := by
  rintro rfl
  exact (h.naming.unused _ (List.mem_map.2 ⟨_, hname, rfl⟩)).2 (List.mem_map.2 ⟨n, hn, rfl⟩)

/-- No two nodes are named alike once all suggestions are followed. -/
theorem nameOf_injOn (h : report.Suggests options doc) (hnodup : doc.nodeIds.Nodup) {m n : Document.Node}
    (hm : m ∈ doc.nodes) (hn : n ∈ doc.nodes) (heq : report.nameOf m.id = report.nameOf n.id) : m.id = n.id := by
  rcases h.nameOf_cases hnodup hm with ⟨-, hold⟩ | ⟨-, hsuggested⟩ <;>
    rcases h.nameOf_cases hnodup hn with ⟨-, hold'⟩ | ⟨-, hsuggested'⟩
  · rw [← hold, heq, hold']
  · exact absurd (heq.symm.trans hold) (h.name_ne_id hm hsuggested')
  · exact absurd (heq.trans hold') (h.name_ne_id hn hsuggested)
  · exact congrArg Prod.fst (List.inj_on_of_nodup_map h.naming.nodup hsuggested hsuggested' heq)

/-- Following all suggestions at once resolves what collides and makes no new clash. -/
theorem resolves (h : report.Suggests options doc) (hnodup : doc.nodeIds.Nodup) (read : PatternReader) :
    report.Resolves read options doc := by
  have hfree : ∀ n ∈ (doc.rename report.nameOf).nodes, options.collides n = false := by
    intro n hn
    obtain ⟨m, hm, rfl⟩ := List.mem_map.1 hn
    rcases h.nameOf_cases hnodup hm with ⟨hcollides, hname⟩ | ⟨-, hsuggested⟩
    · rw [hname]
      exact hcollides
    · have hunused := (h.naming.unused _ (List.mem_map.2 ⟨_, hsuggested, rfl⟩)).1
      rw [Options.collides_eq_false_iff]
      exact fun _ hused => absurd hused hunused
  constructor
  case nodup =>
    rw [Document.nodeIds_rename, Document.nodeIds, List.map_map]
    exact (List.Nodup.of_map _ hnodup).map_on fun m hm n hn heq =>
      List.inj_on_of_nodup_map hnodup hm hn (h.nameOf_injOn hnodup hm hn heq)
  case free => exact hfree
  case checked =>
    intro e he hcode
    have hsecond := checkDocumentBy_suggests read options (doc.rename report.nameOf)
    have hkeys := hsecond.keys
    rw [List.filter_eq_nil_iff.2 fun n hn => by simp [hfree n hn], List.map_nil, List.map_eq_nil_iff] at hkeys
    have herrors := hsecond.errors
    rw [hkeys, List.map_nil, List.map_eq_nil_iff, List.filter_eq_nil_iff] at herrors
    exact herrors e he (by simp [hcode])

end Report.Suggests

/-- The names that a check suggests are safe. They are suggested for the declared nodes that are on the canvas, each once and
with one error (for none if that is not checked); they are all different, neither on the canvas nor in the document, and each
the variant `id_n` with the least `n` from two on that is free at its turn. Following all of them at once leaves a document
whose nodes have different ids, none of which collides. -/
theorem checkBy_renames (read : PatternReader) (options : Options) (text : String) :
    let doc := Document.parse text
    let report := checkBy read options text
    report.Suggests options doc ∧ (report.renames.map (·.1)).Nodup ∧ report.Resolves read options doc := by
  intro doc report
  have hnodup : doc.nodeIds.Nodup := (Document.isCoherent_parse text).nodes_nodup
  have hsuggests : report.Suggests options doc := checkDocumentBy_suggests read options doc
  refine ⟨hsuggests, ?_, hsuggests.resolves hnodup read⟩
  rw [hsuggests.keys]
  exact (List.filter_sublist.map _).nodup hnodup

/-- Two nodes collide, the numbered variant of one with the other, and that of the other with a node of the canvas. -/
example : (check { usedNodeIds := ["a", "a_2", "a_2_2"] } "flowchart TD\n  a[A] --> a_2[B]\n  a_3 --> c[C]\n").renames =
    [("a", "a_4"), ("a_2", "a_2_3")] := by
  decide +kernel

end Ids

end Whiteboard
