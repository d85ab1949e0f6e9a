import Whiteboard.Canvas.Element

/-!
# Kinds of elements

An element is a shape, a text or an arrow, and it has nothing of what belongs to the other two (`Element.kind_cases`). What is
known of an element from its kind is read off this one case distinction.
-/

namespace Whiteboard.Element

variable {e : Element}

/-- An element is a shape, a text or an arrow: only a shape has a role, only a text has a content and may be bound to a
container, and only an arrow may join two elements. -/
theorem kind_cases (e : Element) :
    (e.isShape = true ∧ e.isArrow = false ∧ e.text? = none ∧ e.container? = none ∧ e.ends? = none) ∨
    (e.text?.isSome = true ∧ e.isShape = false ∧ e.isArrow = false ∧ e.ends? = none ∧ e.role? = none) ∨
    (e.isArrow = true ∧ e.isShape = false ∧ e.text? = none ∧ e.container? = none ∧ e.role? = none) := by
  obtain ⟨id, kind, transform, bound, groupIds⟩ := e
  cases kind with
  | rectangle => exact .inl ⟨rfl, rfl, rfl, rfl, rfl⟩
  | diamond => exact .inl ⟨rfl, rfl, rfl, rfl, rfl⟩
  | ellipse => exact .inl ⟨rfl, rfl, rfl, rfl, rfl⟩
  | text content container? fontSize => exact .inr (.inl ⟨rfl, rfl, rfl, rfl, rfl⟩)
  | arrow start? finish? dashed => exact .inr (.inr ⟨rfl, rfl, rfl, rfl, rfl⟩)

/-- A shape is no arrow, has no content, is bound to nothing and joins nothing. -/
theorem of_isShape (h : e.isShape = true) : e.isArrow = false ∧ e.text? = none ∧ e.container? = none ∧ e.ends? = none := by
  simpa [h] using e.kind_cases

/-- An arrow is no shape, has no content and is bound to no container. -/
theorem of_isArrow (h : e.isArrow = true) : e.isShape = false ∧ e.text? = none ∧ e.container? = none := by
  have hcases := e.kind_cases
  simp only [h, Bool.true_eq_false, false_and, and_false, false_or, true_and] at hcases
  exact ⟨hcases.1, hcases.2.1, hcases.2.2.1⟩

/-- What is bound to a container is neither a shape nor an arrow. -/
theorem of_container? (h : e.container?.isSome = true) : e.isShape = false ∧ e.isArrow = false := by
  have hsome : e.container? ≠ none := Option.isSome_iff_ne_none.1 h
  exact ⟨Bool.eq_false_iff.2 fun hshape => hsome (of_isShape hshape).2.2.1,
    Bool.eq_false_iff.2 fun harrow => hsome (of_isArrow harrow).2.2⟩

/-- Only arrows join elements. -/
theorem ends?_of_not_isArrow (h : e.isArrow = false) : e.ends? = none := by
  rcases e.kind_cases with ⟨-, -, -, -, hends⟩ | ⟨-, -, -, hends, -⟩ | ⟨harrow, -⟩
  · exact hends
  · exact hends
  · rw [h] at harrow
    cases harrow

/-- What joins two elements is an arrow. -/
theorem isArrow_of_ends? (h : e.ends?.isSome = true) : e.isArrow = true := by
  cases harrow : e.isArrow with
  | true => rfl
  | false =>
    rw [ends?_of_not_isArrow harrow] at h
    cases h

/-! ## Roles -/

/-- Only shapes have a role. -/
theorem role?_of_not_isShape (h : e.isShape = false) : e.role? = none := by
  rcases e.kind_cases with ⟨hshape, -⟩ | ⟨-, -, -, -, hrole⟩ | ⟨-, -, -, -, hrole⟩
  · rw [h] at hshape
    cases hshape
  · exact hrole
  · exact hrole

/-- Only shapes stand for groups. -/
theorem isContainer_of_not_isShape (h : e.isShape = false) : e.isContainer = false := by
  rw [isContainer, role?_of_not_isShape h]
  rfl

/-- Only shapes stand for nodes. -/
theorem isNode_of_not_isShape (h : e.isShape = false) : e.isNode = false := by
  rw [isNode, role?_of_not_isShape h]
  rfl

/-- A shape has exactly one of the two roles. -/
theorem isNode_eq_not_isContainer (h : e.isShape = true) : e.isNode = !e.isContainer := by
  obtain ⟨id, kind, transform, bound, groupIds⟩ := e
  cases kind with
  | rectangle => cases hsize : hasContainerSize transform <;> simp [isNode, isContainer, role?, hsize]
  | diamond => rfl
  | ellipse => rfl
  | text content container? fontSize => cases h
  | arrow start? finish? dashed => cases h

/-- What stands for a node does not stand for a group. -/
theorem isContainer_of_isNode (h : e.isNode = true) : e.isContainer = false := by
  rw [isNode, beq_iff_eq] at h
  rw [isContainer, h]
  rfl

end Whiteboard.Element
