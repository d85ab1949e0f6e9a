import Whiteboard.Diagram.Line

/-!
# Statements

A statement is a chain of node groups joined by links: `a & b --> c -.->|later| d`. A reader works on a `Cursor`, the
characters that are left and the number of those before them, and every step it takes leaves fewer of them.
-/

namespace Whiteboard

open Text

/-- A bracket pair after a node id, with the label as it is written. -/
structure ShapeSpan where
  shape : Shape
  /-- The text between the brackets, without the quotes around it. -/
  label : String
  quoted : Bool
  deriving DecidableEq, Repr

/-- A node as a statement refers to it. -/
structure NodeRef where
  id : String
  span? : Option ShapeSpan
  /-- The column of the id, counted from one. -/
  column : Nat
  deriving DecidableEq, Repr

/-- Nodes joined by `&`: a first one, and others each with the column of the `&` before it. -/
structure NodeGroup where
  first : NodeRef
  more : List (Nat × NodeRef) := []
  deriving DecidableEq, Repr

/-- The nodes of a group, in order. -/
def NodeGroup.refs (group : NodeGroup) : List NodeRef := group.first :: group.more.map (·.2)

/-- The style of a link. -/
inductive Arrow where
  | solid
  | dashed
  /-- An arrow that can be read but is in neither of the two styles. -/
  | other
  deriving DecidableEq, Repr

/-- What joins two node groups. -/
structure Link where
  arrow : Arrow
  /-- The text on the link as it is written, without blanks around it. -/
  label? : Option String
  /-- The column of the arrow, counted from one. -/
  column : Nat
  deriving DecidableEq, Repr

/-- A chain of node groups: a first one, and others each with the link that leads to it. -/
structure Statement where
  first : NodeGroup
  steps : List (Link × NodeGroup) := []
  deriving DecidableEq, Repr

namespace Statement

/-- The node groups, in order. -/
def groups (s : Statement) : List NodeGroup := s.first :: s.steps.map (·.2)

/-- The links, in order. -/
def links (s : Statement) : List Link := s.steps.map (·.1)

/-- Every reference to a node, in order. -/
def refs (s : Statement) : List NodeRef := s.groups.flatMap (·.refs)

/-- The columns of every `&`, in order. -/
def ampersands (s : Statement) : List Nat := s.groups.flatMap fun g => g.more.map (·.1)

/-- Each link with the groups on its two sides. -/
def hops (s : Statement) : List (NodeGroup × Link × NodeGroup) := s.groups.zip s.steps

/-- The statement with one more reference in front of its first group; `ampersand` is the column of the `&` between. -/
def addRef (ref : NodeRef) (ampersand : Nat) (s : Statement) : Statement :=
  { s with first := ⟨ref, (ampersand, s.first.first) :: s.first.more⟩ }

/-- The statement with one more group, of a single node, linked to its first one. -/
def addLink (ref : NodeRef) (link : Link) (s : Statement) : Statement :=
  { first := ⟨ref, []⟩, steps := (link, s.first) :: s.steps }

end Statement

/-- Why a text is not a statement. -/
inductive StatementFault where
  /-- A bracket that belongs to none of the shapes. -/
  | unknownBracket (opener : String)
  /-- A bracket without its counterpart. -/
  | unclosedBracket (opener : String)
  /-- No node id where one is due. -/
  | nodeExpected
  /-- Text that continues no statement. -/
  | unexpected (rest : String)
  deriving DecidableEq, Repr

/-- A fault and the column where it shows, counted from one. -/
structure StatementError where
  column : Nat
  fault : StatementFault
  deriving DecidableEq, Repr

/-- A place in a text: the number of characters before it and the characters after it. -/
structure Cursor where
  passed : Nat
  rest : List Char
  deriving DecidableEq, Repr

namespace Cursor

/-- The column of the next character, counted from one. -/
def column (cur : Cursor) : Nat := cur.passed + 1

/-- The place `n` characters on. -/
def advance (cur : Cursor) (n : Nat) : Cursor := ⟨cur.passed + n, cur.rest.drop n⟩

/-- The place after the blanks that come next. -/
def skipBlanks (cur : Cursor) : Cursor := cur.advance (cur.rest.takeWhile isBlank).length

/-- The longest run of identifier characters that comes next. -/
def identifier (cur : Cursor) : List Char := cur.rest.takeWhile isIdChar

end Cursor

namespace Statement

/-- Brackets that look like a shape and are none. -/
def unknownBrackets : List String := ["(((", "[[", "[(", "[/", "[\\", ">"]

/-- The shapes that have brackets of their own, those with longer brackets first. -/
def bracketedShapes : List Shape := [.circle, .stadium, .hexagon, .rectangle, .rounded, .decision]

/-- Whether a token comes next. -/
def startsWith (rest : List Char) (token : String) : Bool := token.toList.isPrefixOf rest

/-- The label and the number of characters up to the closing bracket, that bracket included; none if the label is not
closed. A label between quotes ends at the next quote, which the bracket has to follow at once. -/
def readLabel? (closer : List Char) : List Char → Option (List Char × Bool × Nat)
  | '"' :: rest =>
    let label := rest.takeWhile (· != '"')
    if ('"' :: closer).isPrefixOf (rest.drop label.length) then
      some (label, true, label.length + 2 + closer.length)
    else none
  | rest => (breakOn? closer rest).map fun (label, _) => (label, false, label.length + closer.length)

/-- The shape after a node id, if there is one, and the place behind it. -/
def readShape (cur : Cursor) : Except StatementError (Option ShapeSpan × Cursor) :=
  match unknownBrackets.find? (startsWith cur.rest) with
  | some opener => .error ⟨cur.column, .unknownBracket opener⟩
  | none =>
    match bracketedShapes.find? fun shape => startsWith cur.rest shape.opener with
    | none => .ok (none, cur)
    | some shape =>
      match readLabel? shape.closer.toList (cur.rest.drop shape.opener.length) with
      | none => .error ⟨cur.column, .unclosedBracket shape.opener⟩
      | some (label, quoted, length) =>
        .ok (some ⟨shape, String.ofList label, quoted⟩, cur.advance (shape.opener.length + length))

/-- A reference to a node, after any blanks, and the place behind it. -/
def readRef (start : Cursor) : Except StatementError (NodeRef × Cursor) :=
  let cur := start.skipBlanks
  let id := cur.identifier
  if id.isEmpty then .error ⟨cur.column, .nodeExpected⟩
  else (readShape (cur.advance id.length)).map fun (span?, next) => (⟨String.ofList id, span?, cur.column⟩, next)

/-- The number of characters equal to `c` that come first. -/
def run (c : Char) (s : List Char) : Nat := (s.takeWhile (· == c)).length

/-- The label inside an arrow written around its text, and the length of the whole: two dashes, the text between blanks,
and `-->`. The text holds no dash, pipe or angle. -/
def readInlineArrow? (rest : List Char) : Option (String × Nat) :=
  let text := (rest.drop 2).takeWhile fun c => c != '-' && c != '|' && c != '>'
  if startsWith rest "--" && startsWith (rest.drop (2 + text.length)) "-->" && 3 ≤ text.length &&
      text.head?.any isBlank && text.getLast?.any isBlank then
    some (String.ofList (trim text), text.length + 5)
  else none

/-- The length of an arrow written without text: a dash, dots and `->` or a dash; two or more dashes or equals signs and
an angle; or three or more dashes. -/
def readPlainArrow? (rest : List Char) : Option Nat :=
  let dashes := run '-' rest
  let equals := run '=' rest
  let dots := run '.' (rest.drop 1)
  if dashes = 1 && 1 ≤ dots && startsWith (rest.drop (1 + dots)) "->" then some (dots + 3)
  else if 2 ≤ dashes && startsWith (rest.drop dashes) ">" then some (dashes + 1)
  else if 2 ≤ equals && startsWith (rest.drop equals) ">" then some (equals + 1)
  else if 3 ≤ dashes then some dashes
  else if dashes = 1 && 1 ≤ dots && startsWith (rest.drop (1 + dots)) "-" then some (dots + 2)
  else none

/-- The style of an arrow by its spelling. -/
def arrowOf (token : List Char) : Arrow :=
  if token = (arrowToken false).toList then .solid
  else if token = (arrowToken true).toList then .dashed
  else .other

/-- The arrow that comes next, with the text written inside it, and the place behind it. -/
def readArrow? (cur : Cursor) : Option (Arrow × Option String × Cursor) :=
  match readInlineArrow? cur.rest with
  | some (label, length) => some (.other, some label, cur.advance length)
  | none => (readPlainArrow? cur.rest).map fun length =>
      (arrowOf (cur.rest.take length), none, cur.advance length)

/-- A link and the place behind it. A label between pipes may follow the arrow after blanks, and replaces a text inside
the arrow; if its second pipe is missing, the text behind the first one is what is unexpected. -/
def readLink (cur : Cursor) : Except StatementError (Link × Cursor) :=
  match readArrow? cur with
  | none => .error ⟨cur.column, .unexpected (String.ofList cur.rest)⟩
  | some (arrow, text?, next) =>
    match next.skipBlanks with
    | ⟨passed, '|' :: rest⟩ =>
      let label := rest.takeWhile (· != '|')
      if label.length < rest.length then
        .ok (⟨arrow, some (String.ofList (trim label)), cur.column⟩,
          ⟨passed + label.length + 2, rest.drop (label.length + 1)⟩)
      else .error ⟨cur.column, .unexpected (String.ofList rest)⟩
    | _ => .ok (⟨arrow, text?, cur.column⟩, next)

/-! ## Every step leaves fewer characters -/

theorem length_advance_le (cur : Cursor) (n : Nat) : (cur.advance n).rest.length ≤ cur.rest.length := by
  simp [Cursor.advance]

theorem length_skipBlanks_le (cur : Cursor) : cur.skipBlanks.rest.length ≤ cur.rest.length :=
  length_advance_le cur _

/-- Reading a shape leaves no more to read. -/
theorem length_readShape_le {cur next : Cursor} {span? : Option ShapeSpan}
    (h : readShape cur = .ok (span?, next)) : next.rest.length ≤ cur.rest.length := by
  unfold readShape at h
  split at h
  · cases h
  · split at h
    · cases h
      exact Nat.le_refl _
    · split at h
      · cases h
      · cases h
        exact length_advance_le cur _

/-- Reading a reference leaves less to read: it takes an id at least. -/
theorem length_readRef_lt {start next : Cursor} {ref : NodeRef} (h : readRef start = .ok (ref, next)) :
    next.rest.length < start.rest.length := by
  unfold readRef at h
  simp only at h
  split at h
  · cases h
  · rename_i hid
    cases hs : readShape (start.skipBlanks.advance start.skipBlanks.identifier.length) with
    | error e => simp [hs, Except.map] at h
    | ok r =>
      obtain ⟨span?, next'⟩ := r
      simp only [hs, Except.map, Except.ok.injEq, Prod.mk.injEq] at h
      obtain ⟨-, rfl⟩ := h
      have h1 := length_readShape_le hs
      have h2 := length_skipBlanks_le start
      have h3 : start.skipBlanks.identifier.length ≤ start.skipBlanks.rest.length :=
        (List.takeWhile_prefix _).length_le
      have h4 : 0 < start.skipBlanks.identifier.length := by
        rw [List.length_pos_iff]
        intro hnil
        exact hid (by rw [hnil]; rfl)
      simp only [Cursor.advance, List.length_drop] at h1
      omega

/-- Reading an arrow leaves no more to read. -/
theorem length_readArrow?_le {cur next : Cursor} {arrow : Arrow} {text? : Option String}
    (h : readArrow? cur = some (arrow, text?, next)) : next.rest.length ≤ cur.rest.length := by
  unfold readArrow? at h
  split at h
  · cases h
    exact length_advance_le cur _
  · obtain ⟨n, -, hn⟩ := Option.map_eq_some_iff.mp h
    cases hn
    exact length_advance_le cur _

/-- Reading a link leaves no more to read. -/
theorem length_readLink_le {cur next : Cursor} {link : Link} (h : readLink cur = .ok (link, next)) :
    next.rest.length ≤ cur.rest.length := by
  unfold readLink at h
  split at h
  · cases h
  · rename_i behind ha
    have h1 := length_readArrow?_le ha
    have h2 := length_skipBlanks_le behind
    split at h
    · rename_i hb
      rw [hb] at h2
      simp only at h
      split at h
      · cases h
        simp only [List.length_cons, List.length_drop] at h2 ⊢
        omega
      · cases h
    · cases h
      exact h1

/-! ## The whole statement -/

/-- The statement that starts at a place and takes up the rest of the text. -/
def readFrom (start : Cursor) : Except StatementError Statement :=
  match _href : readRef start with
  | .error e => .error e
  | .ok (ref, cur) =>
    match _hnext : cur.skipBlanks.rest with
    | [] => .ok ⟨⟨ref, []⟩, []⟩
    | '&' :: _ => (readFrom (cur.skipBlanks.advance 1)).map (addRef ref cur.skipBlanks.column)
    | _ =>
      match _hlink : readLink cur.skipBlanks with
      | .error e => .error e
      | .ok (link, next) => (readFrom next).map (addLink ref link)
termination_by start.rest.length
decreasing_by
  · have h1 := length_readRef_lt _href
    have h2 := length_skipBlanks_le cur
    have h3 := length_advance_le cur.skipBlanks 1
    omega
  · have h1 := length_readRef_lt _href
    have h2 := length_skipBlanks_le cur
    have h3 := length_readLink_le _hlink
    omega

/-- The statement that a text is, or the first fault that keeps it from being one. -/
def parse (text : List Char) : Except StatementError Statement := readFrom ⟨0, text⟩

end Statement

end Whiteboard
