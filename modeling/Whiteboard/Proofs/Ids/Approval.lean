import Whiteboard.Proofs.Validation.Coherence

/-!
# Ids that are accepted

Each of the checks finds nothing exactly if its rule is kept: no id is declared twice (`duplicateErrors_eq_nil_iff`), no label
stands for another id (`labelErrors_eq_nil_iff`), and every edge can have an id (`synthesize_of_ok`, `synthesize_of_error`).

Main statement: a text has no fault in its ids exactly if all rules are kept by the document that it reads as, and the ids that
are suggested for its edges are those that edges get on the canvas (`checkBy_isOk_iff`). That the ends of edges have to be known
is no rule of its own, since they always are.
-/

namespace Whiteboard.Ids

variable {read : PatternReader} {options : Options}

/-! ## The single rules -/

/-- A word is not reserved if it is none of the reserved ones, whatever the case of its letters. -/
theorem isReserved_eq_false_iff {reserved : List String} {id : String} :
    isReserved reserved id = false ↔ ∀ word ∈ reserved, lowered word ≠ lowered id := by
  simp [isReserved]

/-- No declaration is found to repeat an id exactly if all ids are different, and different from those before. -/
theorem duplicateErrors_eq_nil_iff {before : List String} {ds : List Document.Declaration} :
    duplicateErrors before ds = [] ↔ (ds.map (·.id)).Nodup ∧ ∀ d ∈ ds, d.id ∉ before := by
  induction ds generalizing before with
  | nil => simp [duplicateErrors]
  | cons d rest ih =>
    have hfirst : (if before.contains d.id then [⟨d.id, d.line, .declaredTwice⟩] else [] : List Error) = [] ↔
        d.id ∉ before := by simp
    have hrest : (∀ e ∈ rest, e.id ∉ d.id :: before) ↔ d.id ∉ rest.map (·.id) ∧ ∀ e ∈ rest, e.id ∉ before := by
      simp only [List.mem_cons, not_or, List.mem_map, not_exists, not_and]
      exact ⟨fun h => ⟨fun e he => (h e he).1, fun e he => (h e he).2⟩, fun h e he => ⟨h.1 e he, h.2 e he⟩⟩
    rw [duplicateErrors, List.append_eq_nil_iff, hfirst, ih, hrest, List.map_cons, List.nodup_cons, List.forall_mem_cons]
    tauto

/-- No label is found to stand for another id exactly if every such pair of label and id is one that was noted before. -/
theorem labelErrors_eq_nil_iff {before : List (String × String)} {ds : List Document.Declaration} :
    labelErrors options before ds = [] ↔
      ∀ d ∈ ds, ∀ id, options.labelToId.lookup d.label = some id → id = d.id ∨ (d.label, d.id) ∈ before := by
  induction ds with
  | nil => simp [labelErrors]
  | cons d rest ih =>
    rw [labelErrors, List.forall_mem_cons]
    cases hlookup : options.labelToId.lookup d.label with
    | none =>
      rw [ih]
      simp
    | some remembered =>
      have hskip : (remembered == d.id || before.contains (d.label, d.id)) = true ↔
          ∀ id, some remembered = some id → id = d.id ∨ (d.label, d.id) ∈ before := by simp
      dsimp only
      split
      · rename_i h
        rw [ih]
        exact ⟨fun hrest => ⟨hskip.1 h, hrest⟩, fun hall => hall.2⟩
      · rename_i h
        exact ⟨fun hnil => absurd hnil (List.cons_ne_nil _ _), fun hall => absurd (hskip.2 hall.1) h⟩

/-- Where every edge can have an id, the suggested ids are those that are handed out. -/
theorem synthesize_of_ok {ids : EdgeIds} {edges : List Document.Edge} {given : List String}
    (h : allocateEdgeIds.go ids (edges.map fun e => (e.source, e.target)) = .ok given) :
    synthesize ids edges = (given, []) := by
  induction edges generalizing ids given with
  | nil =>
    cases h
    rfl
  | cons e rest ih =>
    rw [List.map_cons, allocateEdgeIds.go] at h
    rw [synthesize]
    split at h
    · cases h
    · rename_i id ids' hallocate
      obtain ⟨others, hothers, rfl⟩ := exists_of_map_eq_ok h
      rw [hallocate]
      dsimp only
      rw [ih hothers]

/-- Where some edge can have no id, there is an error. -/
theorem synthesize_of_error {ids : EdgeIds} {edges : List Document.Edge} {edge : UnresolvableEdge}
    (h : allocateEdgeIds.go ids (edges.map fun e => (e.source, e.target)) = .error edge) :
    (synthesize ids edges).2 ≠ [] := by
  induction edges generalizing ids with
  | nil => cases h
  | cons e rest ih =>
    rw [List.map_cons, allocateEdgeIds.go] at h
    rw [synthesize]
    split at h
    · rename_i ids' hallocate
      rw [hallocate]
      exact List.cons_ne_nil _ _
    · rename_i id ids' hallocate
      rw [hallocate]
      exact ih (error_of_map_eq_error h)

/-! ## All rules -/

/-- The rules for the ids of a document. -/
structure Options.Approves (options : Options) (read : PatternReader) (doc : Document) : Prop where
  /-- Every id fits the pattern, or is a semantic id if the pattern is none. -/
  fits : ∀ id ∈ doc.nodeIds, fitsBy read options.pattern id = true
  /-- No id is a reserved word, whatever the case of its letters. -/
  unreserved : ∀ id ∈ doc.nodeIds, ∀ word ∈ options.reserved, lowered word ≠ lowered id
  /-- No declared node is on the canvas, if that is checked. -/
  undeclared : options.checkExisting = true → ∀ n ∈ doc.nodes, n.isDeclared = true → n.id ∉ options.usedNodeIds
  declaredOnce : (doc.declarations.map (·.id)).Nodup
  /-- No label is remembered for another id. -/
  labels : ∀ d ∈ doc.declarations, ∀ id, options.labelToId.lookup d.label = some id → id = d.id
  /-- Every edge can have an id, if they are suggested. -/
  edges : options.synthesizeEdgeIds = true → ∃ ids, allocateEdgeIds options.usedEdgeIds doc.pairs = .ok ids

/-- No check of ids objects to any node exactly if the rules for nodes are kept. -/
theorem forall_allows_iff {doc : Document} : (∀ n ∈ doc.nodes, options.Allows read n) ↔
    (∀ id ∈ doc.nodeIds, fitsBy read options.pattern id = true) ∧
    (∀ id ∈ doc.nodeIds, ∀ word ∈ options.reserved, lowered word ≠ lowered id) ∧
    (options.checkExisting = true → ∀ n ∈ doc.nodes, n.isDeclared = true → n.id ∉ options.usedNodeIds) := by
  simp only [Document.nodeIds, List.forall_mem_map]
  constructor
  · intro h
    refine ⟨fun n hn => (h n hn).fits, fun n hn => isReserved_eq_false_iff.1 (h n hn).unreserved, ?_⟩
    intro hchecked n hn hdeclared hused
    rw [(h n hn).undeclared hchecked hused] at hdeclared
    cases hdeclared
  · rintro ⟨hfits, hunreserved, hundeclared⟩ n hn
    refine ⟨hfits n hn, isReserved_eq_false_iff.2 (hunreserved n hn), fun hchecked hused => ?_⟩
    rw [Bool.eq_false_iff]
    exact fun hdeclared => hundeclared hchecked n hn hdeclared hused

/-- There is no error about edge ids exactly if every edge can have one. -/
theorem synthesize_eq_nil_iff {doc : Document} :
    (if options.synthesizeEdgeIds then synthesize ⟨options.usedEdgeIds, [], []⟩ doc.edges else ([], [])).2 = [] ↔
      (options.synthesizeEdgeIds = true → ∃ ids, allocateEdgeIds options.usedEdgeIds doc.pairs = .ok ids) := by
  split
  · rename_i hsynthesize
    simp only [hsynthesize, true_imp_iff]
    cases hresult : allocateEdgeIds options.usedEdgeIds doc.pairs with
    | ok given => simp [synthesize_of_ok hresult]
    | error edge => simpa using synthesize_of_error hresult
  · rename_i hsynthesize
    simp [hsynthesize]

/-- A text has no fault in its ids exactly if the document that it reads as keeps all rules for them, and the ids suggested for
the edges, if any are, are those that the edges would be given. -/
theorem checkBy_isOk_iff (read : PatternReader) (options : Options) (text : String) :
    let doc := Document.parse text
    let report := checkBy read options text
    (report.isOk = true ↔ options.Approves read doc) ∧
    ∀ ids, options.synthesizeEdgeIds = true → allocateEdgeIds options.usedEdgeIds doc.pairs = .ok ids →
      report.edgeIds = ids := by
  intro doc report
  have hends : doc.edges.flatMap (endpointErrors options doc) = [] :=
    List.flatMap_eq_nil_iff.2 fun e he => endpointErrors_eq_nil options ((Document.isCoherent_parse text).edge_ends e he)
  constructor
  · have herrors : report.errors = [] ↔ (((checkNodes read options doc.nodeIds [] doc.nodes).1 = [] ∧
        duplicateErrors [] doc.declarations = []) ∧ labelErrors options [] doc.declarations = []) ∧
        (if options.synthesizeEdgeIds then synthesize ⟨options.usedEdgeIds, [], []⟩ doc.edges else ([], [])).2 = [] := by
      simp only [report, checkBy, checkDocumentBy, doc, hends, List.append_nil, List.append_eq_nil_iff]
    rw [Report.isOk, List.isEmpty_iff, herrors, checkNodes_eq_nil_iff, forall_allows_iff, duplicateErrors_eq_nil_iff,
      labelErrors_eq_nil_iff, synthesize_eq_nil_iff]
    constructor
    · rintro ⟨⟨⟨⟨hfits, hunreserved, hundeclared⟩, honce, -⟩, hlabels⟩, hedges⟩
      exact ⟨hfits, hunreserved, hundeclared, honce, fun d hd id hid => by simpa using hlabels d hd id hid, hedges⟩
    · rintro ⟨hfits, hunreserved, hundeclared, honce, hlabels, hedges⟩
      exact ⟨⟨⟨⟨hfits, hunreserved, hundeclared⟩, honce, by simp⟩, fun d hd id hid => Or.inl (hlabels d hd id hid)⟩, hedges⟩
  · intro ids hsynthesize hids
    have hgiven : report.edgeIds =
        (if options.synthesizeEdgeIds then synthesize ⟨options.usedEdgeIds, [], []⟩ doc.edges else ([], [])).1 := rfl
    rw [hgiven, if_pos hsynthesize, synthesize_of_ok hids]

/-- Options with something to object to at every turn. -/
def demandingOptions : Options where
  usedNodeIds := ["c"]
  usedEdgeIds := ["a_b"]
  labelToId := [("Ann", "a")]
  reserved := ["END"]
  pattern := "^[a-z]$"
  synthesizeEdgeIds := true

/-- A text that keeps every rule, and one that breaks a rule with every node it declares. -/
theorem checkBy_isOk_iff_demanding :
    let kept := "flowchart TD\n    a[Ann] --> b[Bob]\n    b --> c\n"
    let broken := "flowchart TD\n    end1[x] --> end\n    c[Ann] --> a[A]\n    a[B]\n"
    ((check demandingOptions kept).isOk = true ∧ demandingOptions.Approves readPattern (Document.parse kept)) ∧
    (allocateEdgeIds ["a_b"] (Document.parse kept).pairs = .ok ["a_b_1", "b_c"] ∧
      (check demandingOptions kept).edgeIds = ["a_b_1", "b_c"]) ∧
    ¬ demandingOptions.Approves readPattern (Document.parse broken) := by
  intro kept broken
  have hkept : (check demandingOptions kept).isOk = true := by decide +kernel
  have hpairs : allocateEdgeIds ["a_b"] (Document.parse kept).pairs = .ok ["a_b_1", "b_c"] := by decide +kernel
  have hbroken : (check demandingOptions broken).isOk = false := by decide +kernel
  have hiff := checkBy_isOk_iff readPattern demandingOptions
  refine ⟨⟨hkept, (hiff kept).1.1 hkept⟩, ⟨hpairs, (hiff kept).2 _ rfl hpairs⟩, fun happroves => ?_⟩
  rw [show (check demandingOptions broken).isOk = true from (hiff broken).1.2 happroves] at hbroken
  cases hbroken

end Whiteboard.Ids
