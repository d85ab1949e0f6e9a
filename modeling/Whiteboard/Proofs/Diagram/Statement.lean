import Whiteboard.Diagram.Statement
import Whiteboard.Proofs.Diagram.Line

/-!
# Reading statements

What the reader of statements makes of references and links as they are written. Each statement is about a place with
more text behind what is read, so that the pieces join: `readRef` on an id with or without a bracket pair, `readLink` on
an arrow with or without a label, and `readFrom` on one reference after the other.
-/

namespace Whiteboard

open Text

namespace Cursor

/-- Blanks in front of a text are skipped. -/
theorem skipBlanks_append (p : Nat) (blanks : List Char) {rest : List Char} (hb : ∀ c ∈ blanks, isBlank c = true)
    (hr : ∀ c ∈ rest.head?, isBlank c = false) :
    (⟨p, blanks ++ rest⟩ : Cursor).skipBlanks = ⟨p + blanks.length, rest⟩ := by
  rw [skipBlanks, takeWhile_append_stop hb hr, advance, List.drop_left]

/-- Where no blank comes next nothing is skipped. -/
theorem skipBlanks_eq_self (p : Nat) {rest : List Char} (hr : ∀ c ∈ rest.head?, isBlank c = false) :
    (⟨p, rest⟩ : Cursor).skipBlanks = ⟨p, rest⟩ :=
  skipBlanks_append p [] (by simp) hr

end Cursor

namespace Statement

/-! ## References -/

/-- A closing bracket ends with a character that is neither blank nor a semicolon. -/
theorem exists_closer (shape : Shape) :
    ∃ s c, shape.closer.toList = s ++ [c] ∧ isBlank c = false ∧ (c == ';') = false := by
  cases shape
  case rectangle | rounded | decision => exact ⟨[], _, rfl, by decide, by decide⟩
  case stadium | circle | ellipse | hexagon => exact ⟨[_], _, rfl, by decide, by decide⟩

/-- The characters that may begin a bracket. -/
def bracketStarts : List Char := ['(', '[', '\x7b', '>']

/-- No bracket comes next where its first character does not. -/
theorem readShape_none (p : Nat) {rest : List Char} (hr : ∀ c ∈ rest.head?, c ∉ bracketStarts) :
    readShape ⟨p, rest⟩ = .ok (none, ⟨p, rest⟩) := by
  have hno : ∀ token : String, (∃ c t, token.toList = c :: t ∧ c ∈ bracketStarts) → startsWith rest token = false := by
    rintro token ⟨c, t, ht, hc⟩
    cases rest with
    | nil => simp [startsWith, ht]
    | cons d ds =>
      have hne : c ≠ d := by
        rintro rfl
        exact hr c rfl hc
      simp [startsWith, ht, List.isPrefixOf, hne]
  have hunknown : unknownBrackets.find? (startsWith rest) = none := by
    rw [List.find?_eq_none]
    intro token ht
    have hstart : ∀ token ∈ unknownBrackets, ∃ c t, token.toList = c :: t ∧ c ∈ bracketStarts := by
      simp [unknownBrackets, bracketStarts]
    simp [hno token (hstart token ht)]
  have hshapes : bracketedShapes.find? (fun shape => startsWith rest shape.opener) = none := by
    rw [List.find?_eq_none]
    intro shape _
    have hstart : ∃ c t, shape.opener.toList = c :: t ∧ c ∈ bracketStarts := by
      cases shape <;> simp [Shape.opener, bracketStarts]
    simp [hno _ hstart]
  simp only [readShape, hunknown, hshapes]

/-- A label between quotes ends at the quote that the bracket follows. -/
theorem readLabel?_quoted {label closer : List Char} (hq : '"' ∉ label) (rest : List Char) :
    readLabel? closer ('"' :: label ++ '"' :: closer ++ rest) = some (label, true, label.length + 2 + closer.length) := by
  have htake : (label ++ '"' :: (closer ++ rest)).takeWhile (· != '"') = label := by
    refine takeWhile_append_stop ?_ (by simp)
    intro c hc
    simp only [bne_iff_ne, ne_eq]
    rintro rfl
    exact hq hc
  have hprefix : ('"' :: closer).isPrefixOf ('"' :: (closer ++ rest)) = true := by
    simp [List.isPrefixOf_iff_prefix]
  simp only [List.cons_append, List.append_assoc, readLabel?, htake, List.drop_left, hprefix, if_true]

/-- The shape of a bracket pair around a quoted label. -/
theorem readShape_quoted (p : Nat) (shape : Shape) {label : List Char} (hq : '"' ∉ label) (rest : List Char) :
    ∃ q, readShape ⟨p, shape.opener.toList ++ ('"' :: label ++ '"' :: shape.closer.toList ++ rest)⟩ =
      .ok (some ⟨shape.normalized, String.ofList label, true⟩, ⟨q, rest⟩) := by
  have hunknown : unknownBrackets.find? (startsWith (shape.opener.toList ++ ('"' :: label ++ '"' :: shape.closer.toList ++
      rest))) = none := by
    cases shape <;> simp [unknownBrackets, startsWith, Shape.opener, List.isPrefixOf]
  have hshape : bracketedShapes.find? (fun s => startsWith (shape.opener.toList ++ ('"' :: label ++
      '"' :: shape.closer.toList ++ rest)) s.opener) = some shape.normalized := by
    cases shape <;>
      simp [bracketedShapes, startsWith, Shape.opener, Shape.normalized, List.isPrefixOf]
  have hdrop : (shape.opener.toList ++ ('"' :: label ++ '"' :: shape.closer.toList ++ rest)).drop shape.opener.length =
      '"' :: label ++ '"' :: shape.closer.toList ++ rest := by
    rw [← String.length_toList, List.drop_left]
  have hbehind : (shape.opener.toList ++ ('"' :: label ++ '"' :: shape.closer.toList ++ rest)).drop
      (shape.opener.length + (label.length + 2 + shape.closer.toList.length)) = rest := by
    rw [← List.drop_drop, hdrop]
    exact List.drop_left' (by simp; omega)
  refine ⟨p + (shape.opener.length + (label.length + 2 + shape.closer.toList.length)), ?_⟩
  simp only [readShape, hunknown, hshape, Shape.opener_normalized, Shape.closer_normalized, hdrop,
    readLabel?_quoted hq, Cursor.advance, hbehind]

/-- A reference is the identifier that comes next, after any blanks, and what stands behind it. -/
theorem readRef_append (p : Nat) (blanks : List Char) {rest : List Char} {id : String} (hb : ∀ c ∈ blanks, isBlank c = true)
    (hid : IsWord id) (hr : ∀ c ∈ rest.head?, isIdChar c = false) :
    readRef ⟨p, blanks ++ (id.toList ++ rest)⟩ =
      (readShape ⟨p + blanks.length + id.toList.length, rest⟩).map fun (span?, next) =>
        (⟨id, span?, p + blanks.length + 1⟩, next) := by
  obtain ⟨c, cs, hcs⟩ := List.exists_cons_of_ne_nil hid.toList_ne_nil
  have hhead : ∀ d ∈ (id.toList ++ rest).head?, isBlank d = false := (hid.startsWithIdChar rest).head
  have htake : (id.toList ++ rest).takeWhile isIdChar = id.toList := takeWhile_append_stop hid.2 hr
  have hne : id.toList.isEmpty = false := by simp [hcs]
  rw [readRef, Cursor.skipBlanks_append p blanks hb hhead]
  simp only [Cursor.identifier, htake, hne, Bool.false_eq_true, if_false, Cursor.advance, List.drop_left,
    Cursor.column, String.ofList_toList]

/-- A reference without a bracket pair. -/
theorem readRef_bare (p : Nat) (blanks rest : List Char) {id : String} (hb : ∀ c ∈ blanks, isBlank c = true)
    (hid : IsWord id) (hr : ∀ c ∈ rest.head?, isIdChar c = false ∧ c ∉ bracketStarts) :
    readRef ⟨p, blanks ++ (id.toList ++ rest)⟩ =
      .ok (⟨id, none, p + blanks.length + 1⟩, ⟨p + blanks.length + id.toList.length, rest⟩) := by
  rw [readRef_append p blanks hb hid fun c hc => (hr c hc).1, readShape_none _ fun c hc => (hr c hc).2]
  rfl

/-- A reference with a bracket pair around a quoted label. -/
theorem readRef_quoted (p : Nat) (blanks : List Char) {id : String} (hb : ∀ c ∈ blanks, isBlank c = true)
    (hid : IsWord id) (shape : Shape) {label : List Char} (hq : '"' ∉ label) (rest : List Char) :
    ∃ q, readRef ⟨p, blanks ++ (id.toList ++ (shape.opener.toList ++
        ('"' :: label ++ '"' :: shape.closer.toList ++ rest)))⟩ =
      .ok (⟨id, some ⟨shape.normalized, String.ofList label, true⟩, p + blanks.length + 1⟩, ⟨q, rest⟩) := by
  have hopen : ∀ c ∈ (shape.opener.toList ++ ('"' :: label ++ '"' :: shape.closer.toList ++ rest)).head?,
      isIdChar c = false := by
    cases shape <;> simp [Shape.opener] <;> decide
  obtain ⟨q, hq⟩ := readShape_quoted (p + blanks.length + id.toList.length) shape hq rest
  rw [readRef_append p blanks hb hid hopen, hq]
  exact ⟨q, rfl⟩

/-! ## Links -/

/-- The style of an arrow as a description writes it. -/
def arrowStyle (dashed : Bool) : Arrow := if dashed then .dashed else .solid

/-- An arrow as a description writes it. -/
theorem readArrow?_arrowToken (p : Nat) (dashed : Bool) (rest : List Char) :
    readArrow? ⟨p, (arrowToken dashed).toList ++ rest⟩ =
      some (arrowStyle dashed, none, ⟨p + (arrowToken dashed).toList.length, rest⟩) := by
  cases dashed
  · have hinline : readInlineArrow? ('-' :: '-' :: '>' :: rest) = none := by
      simp [readInlineArrow?]
    have hplain : readPlainArrow? ('-' :: '-' :: '>' :: rest) = some 3 := by
      simp [readPlainArrow?, run, startsWith]
    simp [readArrow?, arrowToken, hinline, hplain, arrowOf, Cursor.advance, arrowStyle]
  · have hinline : readInlineArrow? ('-' :: '.' :: '-' :: '>' :: rest) = none := by
      simp [readInlineArrow?, startsWith]
    have hplain : readPlainArrow? ('-' :: '.' :: '-' :: '>' :: rest) = some 4 := by
      simp [readPlainArrow?, run, startsWith]
    simp [readArrow?, arrowToken, hinline, hplain, arrowOf, Cursor.advance, arrowStyle]

/-- A link without a label, where no pipe follows the arrow and the blanks behind it. -/
theorem readLink_bare (p : Nat) (dashed : Bool) (blanks rest : List Char) (hb : ∀ c ∈ blanks, isBlank c = true)
    (hr : ∀ c ∈ rest.head?, isBlank c = false ∧ c ≠ '|') :
    readLink ⟨p, (arrowToken dashed).toList ++ (blanks ++ rest)⟩ =
      .ok (⟨arrowStyle dashed, none, p + 1⟩, ⟨p + (arrowToken dashed).toList.length, blanks ++ rest⟩) := by
  rw [readLink, readArrow?_arrowToken]
  simp only
  rw [Cursor.skipBlanks_append _ blanks hb fun c hc => (hr c hc).1]
  split
  · rename_i passed rest' heq
    simp only [Cursor.mk.injEq] at heq
    exact absurd rfl ((hr '|' (by simp [heq.2])).2)
  · rfl

/-- A link with a label between pipes. -/
theorem readLink_label (p : Nat) (dashed : Bool) (label rest : List Char) (hl : '|' ∉ label) :
    ∃ q, readLink ⟨p, (arrowToken dashed).toList ++ ('|' :: label ++ '|' :: rest)⟩ =
      .ok (⟨arrowStyle dashed, some (String.ofList (trim label)), p + 1⟩, ⟨q, rest⟩) := by
  have htake : (label ++ '|' :: rest).takeWhile (· != '|') = label := by
    refine takeWhile_append_stop ?_ (by simp)
    intro c hc
    simp only [bne_iff_ne, ne_eq]
    rintro rfl
    exact hl hc
  have hdrop : (label ++ '|' :: rest).drop (label.length + 1) = rest := by
    rw [← List.drop_drop, List.drop_left, List.drop_one, List.tail_cons]
  refine ⟨p + (arrowToken dashed).toList.length + label.length + 2, ?_⟩
  rw [readLink, readArrow?_arrowToken]
  simp only
  rw [Cursor.skipBlanks_eq_self _ (by simp; decide)]
  simp only [List.cons_append, htake, List.length_append, List.length_cons, hdrop]
  rw [if_pos (by omega)]
  rfl

/-! ## Chains -/

theorem refs_single (ref : NodeRef) : (⟨⟨ref, []⟩, []⟩ : Statement).refs = [ref] := rfl

theorem refs_addRef (s : Statement) (ref : NodeRef) (column : Nat) : (s.addRef ref column).refs = ref :: s.refs := rfl

theorem refs_addLink (s : Statement) (ref : NodeRef) (link : Link) : (s.addLink ref link).refs = ref :: s.refs := rfl

theorem links_addLink (s : Statement) (ref : NodeRef) (link : Link) : (s.addLink ref link).links = link :: s.links := rfl

/-- A statement that ends after its first reference. -/
theorem readFrom_last {start cur : Cursor} {ref : NodeRef} (href : readRef start = .ok (ref, cur))
    (hend : cur.skipBlanks.rest = []) : readFrom start = .ok ⟨⟨ref, []⟩, []⟩ := by
  rw [readFrom]
  split
  · rename_i e he
    rw [href] at he
    cases he
  · rename_i ref' cur' he
    rw [href] at he
    cases he
    split
    · rfl
    · rename_i hnext
      rw [hend] at hnext
      cases hnext
    · rename_i hnext _
      exact absurd hend hnext

/-- A statement that goes on with one more reference of the same group. -/
theorem readFrom_ampersand {start cur : Cursor} {ref : NodeRef} (href : readRef start = .ok (ref, cur))
    (hamp : cur.skipBlanks.rest.head? = some '&') :
    readFrom start = (readFrom (cur.skipBlanks.advance 1)).map (addRef ref cur.skipBlanks.column) := by
  rw [readFrom]
  split
  · rename_i e he
    rw [href] at he
    cases he
  · rename_i ref' cur' he
    rw [href] at he
    cases he
    split
    · rename_i hnext
      simp [hnext] at hamp
    · rfl
    · rename_i hnot
      cases hrest : cur.skipBlanks.rest with
      | nil => simp [hrest] at hamp
      | cons c cs =>
        rw [hrest, List.head?_cons, Option.some.injEq] at hamp
        exact absurd (by rw [hrest, hamp]) (hnot cs)

/-- A statement that goes on with a link. -/
theorem readFrom_link {start cur next : Cursor} {ref : NodeRef} {link : Link} {c : Char}
    (href : readRef start = .ok (ref, cur)) (hc : cur.skipBlanks.rest.head? = some c) (hamp : c ≠ '&')
    (hlink : readLink cur.skipBlanks = .ok (link, next)) :
    readFrom start = (readFrom next).map (addLink ref link) := by
  rw [readFrom]
  split
  · rename_i e he
    rw [href] at he
    cases he
  · rename_i ref' cur' he
    rw [href] at he
    cases he
    split
    · rename_i hnext
      simp [hnext] at hc
    · rename_i hnext
      simp only [hnext, List.head?_cons, Option.some.injEq] at hc
      exact absurd hc.symm hamp
    · split
      · rename_i e he
        rw [hlink] at he
        cases he
      · rename_i link' next' he
        rw [hlink] at he
        cases he
        rfl

end Statement

end Whiteboard
