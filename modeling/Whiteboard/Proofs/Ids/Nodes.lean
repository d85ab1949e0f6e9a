import Whiteboard.Ids.Check

/-!
# Checking nodes

What the check of the nodes of a document does at one node (`checkNodes_cons`): it may object to the id itself, which changes
nothing else, and it names a node anew that is on the canvas. Main statements: the check finds nothing exactly if it allows
every node (`checkNodes_eq_nil_iff`), and what it finds is one of three kinds (`code_of_mem_checkNodes`).
-/

namespace Whiteboard.Ids

/-- A node is declared although it is on the canvas, which matters only if that is checked. -/
def Options.collides (options : Options) (node : Document.Node) : Bool :=
  options.checkExisting && node.isDeclared && options.usedNodeIds.contains node.id

/-- What is wrong with the id of a node in itself. -/
def idErrors (read : PatternReader) (options : Options) (node : Document.Node) : List Error :=
  (if fitsBy read options.pattern node.id then [] else [⟨node.id, node.line, .invalidFormat options.pattern⟩]) ++
  if isReserved options.reserved node.id then [⟨node.id, node.line, .reserved⟩] else []

/-- The names that no new node may have, once some are suggested. -/
def takenNames (options : Options) (nodeIds : List String) (names : List (String × String)) : List String :=
  options.usedNodeIds ++ nodeIds ++ names.map (·.2)

variable {read : PatternReader} {options : Options} {nodeIds : List String} {names : List (String × String)}

/-- One more node: if it collides, the check goes on with one more name. -/
theorem checkNodes_cons (node : Document.Node) (rest : List Document.Node) :
    checkNodes read options nodeIds names (node :: rest) =
      if options.collides node then
        let name := freshName (takenNames options nodeIds names) node.id
        let (errors, all) := checkNodes read options nodeIds (names ++ [(node.id, name)]) rest
        (idErrors read options node ++ ⟨node.id, node.line, .onCanvas name⟩ :: errors, all)
      else
        let (errors, all) := checkNodes read options nodeIds names rest
        (idErrors read options node ++ errors, all) := by
  rw [checkNodes]
  rfl

/-- An id is rejected for its format or because it is reserved. -/
theorem code_of_mem_idErrors {node : Document.Node} {e : Error} (h : e ∈ idErrors read options node) :
    e.code = .invalidFormat ∨ e.code = .reserved := by
  rw [idErrors, List.mem_append] at h
  rcases h with h | h
  · split at h
    · cases h
    · rw [List.mem_singleton.1 h]
      exact Or.inl rfl
  · split at h
    · rw [List.mem_singleton.1 h]
      exact Or.inr rfl
    · cases h

/-- The check of nodes finds ids of the wrong form, reserved ids and ids on the canvas. -/
theorem code_of_mem_checkNodes {nodes : List Document.Node} {e : Error}
    (h : e ∈ (checkNodes read options nodeIds names nodes).1) :
    e.code = .invalidFormat ∨ e.code = .reserved ∨ e.code = .collisionExisting := by
  induction nodes generalizing names with
  | nil => cases h
  | cons node rest ih =>
    rw [checkNodes_cons] at h
    split at h
    · rcases List.mem_append.1 h with h | h
      · exact (code_of_mem_idErrors h).imp_right Or.inl
      · rcases List.mem_cons.1 h with rfl | h
        · exact Or.inr (Or.inr rfl)
        · exact ih h
    · rcases List.mem_append.1 h with h | h
      · exact (code_of_mem_idErrors h).imp_right Or.inl
      · exact ih h

/-- No check of ids objects to a node. -/
structure Options.Allows (options : Options) (read : PatternReader) (node : Document.Node) : Prop where
  fits : fitsBy read options.pattern node.id = true
  unreserved : isReserved options.reserved node.id = false
  /-- What is on the canvas already is not declared again. -/
  undeclared : options.checkExisting = true → node.id ∈ options.usedNodeIds → node.isDeclared = false

/-- A node collides only if ids in use are checked, its own is one of them and the node is declared. -/
theorem Options.collides_eq_false_iff {node : Document.Node} : options.collides node = false ↔
    (options.checkExisting = true → node.id ∈ options.usedNodeIds → node.isDeclared = false) := by
  cases hchecked : options.checkExisting <;> cases hdeclared : node.isDeclared <;> simp [collides, hchecked, hdeclared]

/-- Nothing is said against an id that fits and is not reserved. -/
theorem idErrors_eq_nil_iff {node : Document.Node} : idErrors read options node = [] ↔
    fitsBy read options.pattern node.id = true ∧ isReserved options.reserved node.id = false := by
  simp [idErrors]

/-- Nothing is found exactly if no check objects to any of the nodes. -/
theorem checkNodes_eq_nil_iff {nodes : List Document.Node} :
    (checkNodes read options nodeIds names nodes).1 = [] ↔ ∀ n ∈ nodes, options.Allows read n := by
  induction nodes generalizing names with
  | nil => simp [checkNodes]
  | cons node rest ih =>
    rw [checkNodes_cons, List.forall_mem_cons]
    split
    · rename_i hcollides
      refine ⟨fun h => ?_, fun h => ?_⟩
      · simp at h
      · rw [Options.collides_eq_false_iff.2 h.1.undeclared] at hcollides
        cases hcollides
    · rename_i hfree
      have hundeclared := Options.collides_eq_false_iff.1 (Bool.eq_false_iff.2 hfree)
      rw [List.append_eq_nil_iff, idErrors_eq_nil_iff, ih]
      exact and_congr_left fun _ => ⟨fun h => ⟨h.1, h.2, hundeclared⟩, fun h => ⟨h.fits, h.unreserved⟩⟩

end Whiteboard.Ids
