import Whiteboard.Diagram.Statement
import Whiteboard.Except
import Whiteboard.Text.Bytes

/-!
# Scanning a statement in place

A statement can be read where it stands, without its text being taken apart. A scan knows the number of bytes that it has
passed, and keeps what it finds in three lists: the groups, the links, and the places of the `&`s. Nothing ties these lists to
one another but the loop that fills them, so taking a group by the index of a link may fail (`Scan.Parts.hops?`). Nor is a
number of bytes a place of the text by itself: whatever is looked at or taken from the text is cut off at some number of bytes,
and a cut may fail too (`Scan.Failure.misplaced`).
-/

namespace Whiteboard

open Text

namespace Scan

/-- Why a scan fails. -/
inductive Failure where
  /-- The text is cut where none of its characters begins. -/
  | misplaced
  /-- The text is no statement. -/
  | fault (e : StatementError)
  deriving DecidableEq, Repr

/-- The parts of a statement, in three lists. -/
structure Parts where
  groups : List (List NodeRef) := []
  links : List Link := []
  /-- The number of bytes before each `&`. -/
  ampersands : List Nat := []
  deriving DecidableEq, Repr

/-- Each link with the groups at its index and behind it; none if there is no group at one of these. -/
def Parts.hops? (parts : Parts) : Option (List (List NodeRef × Link × List NodeRef)) :=
  parts.links.zipIdx.mapM fun (link, i) => do
    let left ← parts.groups[i]?
    let right ← parts.groups[i + 1]?
    return (left, link, right)

/-- A scan under way: the number of bytes that have been passed, the group that is being filled, and what has been found. -/
structure State where
  place : Nat := 0
  group : List NodeRef := []
  parts : Parts := {}
  deriving DecidableEq, Repr

/-- What comes of one round: the scan ends, or it goes on. -/
inductive Turn where
  | ends (parts : Parts)
  | goes (st : State)
  deriving DecidableEq, Repr

/-- The text before a number of bytes and the text behind it. -/
def cut (s : List Char) (bytes : Nat) : Except Failure (List Char × List Char) :=
  match cut? s bytes with
  | some parts => .ok parts
  | none => .error .misplaced

/-- What is left of a text at a place. -/
def rest (text : List Char) (place : Nat) : Except Failure (List Char) := do
  let (_, behind) ← cut text place
  return behind

/-- The column of a place, counted from one. -/
def column (text : List Char) (place : Nat) : Except Failure Nat := do
  let (before, _) ← cut text place
  return before.length + 1

/-- The place after the blanks that come next. -/
def skipBlanks (text : List Char) (place : Nat) : Except Failure Nat := do
  let rest ← rest text place
  return size text - size (trimStart rest)

/-- The longest run of identifier characters that comes next, and the place behind it; none if there is no such character. -/
def identifier? (text : List Char) (place : Nat) : Except Failure (Option (String × Nat)) := do
  let rest ← rest text place
  let length := (placeOf? (fun c => !isIdChar c) rest).getD (size rest)
  if length = 0 then return none
  let (id, _) ← cut rest length
  return some (String.ofList id, place + length)

/-- The label at the beginning of a text, whether it stands between quotes, and the number of bytes up to the closing bracket,
that bracket included; none if the label is not closed. -/
def label? (closer : String) (body : List Char) : Except Failure (Option (String × Bool × Nat)) :=
  match body with
  | '"' :: quoted =>
    match placeOf? (· == '"') quoted with
    | none => return none
    | some length => do
      let (_, behind) ← cut quoted (length + 1)
      if Statement.startsWith behind closer then
        let (label, _) ← cut quoted length
        return some (String.ofList label, true, length + 2 + size closer.toList)
      else return none
  | _ =>
    match placeOfText? closer.toList body with
    | none => return none
    | some length => do
      let (label, _) ← cut body length
      return some (String.ofList label, false, length + size closer.toList)

/-- The shape after a node id, if there is one, and the place behind it. -/
def shape (text : List Char) (place : Nat) : Except Failure (Option ShapeSpan × Nat) := do
  let column ← column text place
  let rest ← rest text place
  match Statement.unknownBrackets.find? (Statement.startsWith rest) with
  | some opener => throw (.fault ⟨column, .unknownBracket opener⟩)
  | none =>
    match Statement.bracketedShapes.find? fun shape => Statement.startsWith rest shape.opener with
    | none => return (none, place)
    | some shape =>
      let inside := place + size shape.opener.toList
      match ← label? shape.closer (← Scan.rest text inside) with
      | none => throw (.fault ⟨column, .unclosedBracket shape.opener⟩)
      | some (label, quoted, length) => return (some ⟨shape, label, quoted⟩, inside + length)

/-- A reference to a node, after any blanks, and the place behind it. -/
def reference (text : List Char) (start : Nat) : Except Failure (NodeRef × Nat) := do
  let place ← skipBlanks text start
  let column ← column text place
  match ← identifier? text place with
  | none => throw (.fault ⟨column, .nodeExpected⟩)
  | some (id, behind) =>
    let (span?, next) ← shape text behind
    return (⟨id, span?, column⟩, next)

/-- The arrow at the beginning of a text, the text written inside it, and its spelling. -/
def arrow? (rest : List Char) : Option (Arrow × Option String × List Char) :=
  match Statement.readInlineArrow? rest with
  | some (label, length) => some (.other, some label, rest.take length)
  | none => (Statement.readPlainArrow? rest).map fun length =>
      (Statement.arrowOf (rest.take length), none, rest.take length)

/-- The link that comes next, which gets the given column, and the place that has been reached. Where there is no link, that is
the place behind the first pipe, if an arrow and a pipe have been passed. -/
def link (text : List Char) (column place : Nat) : Except Failure (Option Link × Nat) := do
  let rest ← rest text place
  match arrow? rest with
  | none => return (none, place)
  | some (arrow, text?, token) =>
    let behind := place + size token
    let next ← skipBlanks text behind
    match ← Scan.rest text next with
    | '|' :: _ =>
      let labelled ← Scan.rest text (next + 1)
      match placeOf? (· == '|') labelled with
      | none => return (none, next + 1)
      | some length =>
        let (label, _) ← cut labelled length
        return (some ⟨arrow, some (String.ofList (trim label)), column⟩, next + 1 + length + 1)
    | _ => return (some ⟨arrow, text?, column⟩, behind)

/-- The link at a place and the place behind it. What is unexpected where there is none is what is left at the place that has
been reached. -/
def joint (text : List Char) (place : Nat) : Except Failure (Link × Nat) := do
  let column ← column text place
  match ← link text column place with
  | (some link, next) => return (link, next)
  | (none, next) =>
    let rest ← rest text next
    throw (.fault ⟨column, .unexpected (String.ofList rest)⟩)

/-- One round: a reference, and what joins the next one to it. -/
def round (text : List Char) (st : State) : Except Failure Turn := do
  let (ref, behind) ← reference text st.place
  let group := st.group ++ [ref]
  let place ← skipBlanks text behind
  if size text ≤ place then
    return .ends { st.parts with groups := st.parts.groups ++ [group] }
  match ← rest text place with
  | '&' :: _ => return .goes ⟨place + 1, group, { st.parts with ampersands := st.parts.ampersands ++ [place] }⟩
  | _ =>
    let (link, next) ← joint text place
    return .goes ⟨next, [], { st.parts with groups := st.parts.groups ++ [group], links := st.parts.links ++ [link] }⟩

/-! ## Every round goes on -/

variable {text : List Char} {start place next : Nat}

/-- What is cut is put together by its two parts. -/
theorem append_of_cut {s before behind : List Char} {bytes : Nat} (h : cut s bytes = .ok (before, behind)) :
    s = before ++ behind ∧ size before = bytes := by
  unfold cut at h
  split at h
  · rename_i parts hparts
    cases h
    exact append_of_cut? hparts
  · cases h

/-- What has been passed and what is left make up the text. -/
theorem add_size_of_rest {left : List Char} (h : rest text place = .ok left) : place + size left = size text := by
  obtain ⟨⟨before, behind⟩, hcut, heq⟩ := exists_of_bind_eq_ok h
  cases heq
  obtain ⟨rfl, rfl⟩ := append_of_cut hcut
  exact (size_append _ _).symm

/-- Skipping blanks does not go back. -/
theorem le_of_skipBlanks (h : skipBlanks text place = .ok next) : place ≤ next := by
  obtain ⟨left, hrest, heq⟩ := exists_of_bind_eq_ok h
  cases heq
  have hsize := add_size_of_rest hrest
  have hskipped : size (trimStart left) ≤ size left := size_dropWhile_le isBlank _
  omega

/-- An id takes up a part of the text. -/
theorem lt_of_identifier? {id : String} (h : identifier? text place = .ok (some (id, next))) :
    place < next ∧ place < size text := by
  obtain ⟨left, hrest, h⟩ := exists_of_bind_eq_ok h
  have hsize := add_size_of_rest hrest
  simp only at h
  split at h
  · cases h
  · rename_i hlength
    obtain ⟨⟨before, behind⟩, hcut, heq⟩ := exists_of_bind_eq_ok h
    cases heq
    obtain ⟨rfl, hbefore⟩ := append_of_cut hcut
    rw [size_append] at hsize
    omega

/-- Reading a shape does not go back. -/
theorem le_of_shape {span? : Option ShapeSpan} (h : shape text place = .ok (span?, next)) : place ≤ next := by
  obtain ⟨column, -, h⟩ := exists_of_bind_eq_ok h
  obtain ⟨left, -, h⟩ := exists_of_bind_eq_ok h
  split at h
  · cases h
  · split at h
    · cases h
      exact Nat.le_refl _
    · obtain ⟨body, -, h⟩ := exists_of_bind_eq_ok h
      obtain ⟨found, -, h⟩ := exists_of_bind_eq_ok h
      split at h
      · cases h
      · cases h
        omega

/-- A reference takes up a part of the text. -/
theorem lt_of_reference {ref : NodeRef} (h : reference text start = .ok (ref, next)) :
    start < next ∧ start < size text := by
  obtain ⟨place, hskip, h⟩ := exists_of_bind_eq_ok h
  obtain ⟨column, -, h⟩ := exists_of_bind_eq_ok h
  obtain ⟨found?, hid, h⟩ := exists_of_bind_eq_ok h
  have hplace := le_of_skipBlanks hskip
  split at h
  · cases h
  · obtain ⟨hbehind, hsize⟩ := lt_of_identifier? hid
    obtain ⟨⟨span?, behind⟩, hshape, heq⟩ := exists_of_bind_eq_ok h
    cases heq
    have hnext := le_of_shape hshape
    omega

/-- Reading a link does not go back. -/
theorem le_of_link {column : Nat} {link? : Option Link} (h : link text column place = .ok (link?, next)) :
    place ≤ next := by
  obtain ⟨left, -, h⟩ := exists_of_bind_eq_ok h
  split at h
  · cases h
    exact Nat.le_refl _
  · obtain ⟨blank, hskip, h⟩ := exists_of_bind_eq_ok h
    obtain ⟨behind, -, h⟩ := exists_of_bind_eq_ok h
    have hblank := le_of_skipBlanks hskip
    split at h
    · obtain ⟨labelled, -, h⟩ := exists_of_bind_eq_ok h
      split at h
      · cases h
        omega
      · obtain ⟨parts, -, heq⟩ := exists_of_bind_eq_ok h
        cases heq
        omega
    · cases h
      omega

/-- Reading a joint does not go back. -/
theorem le_of_joint {link : Link} (h : joint text place = .ok (link, next)) : place ≤ next := by
  obtain ⟨column, -, h⟩ := exists_of_bind_eq_ok h
  obtain ⟨found, hlink, h⟩ := exists_of_bind_eq_ok h
  split at h
  · cases h
    exact le_of_link hlink
  · obtain ⟨left, -, h⟩ := exists_of_bind_eq_ok h
    cases h

/-- A round that is followed by another takes up a part of the text. -/
theorem lt_of_round {st st' : State} (h : round text st = .ok (.goes st')) :
    st.place < st'.place ∧ st.place < size text := by
  obtain ⟨⟨ref, behind⟩, href, h⟩ := exists_of_bind_eq_ok h
  obtain ⟨place, hskip, h⟩ := exists_of_bind_eq_ok h
  have hbehind := lt_of_reference href
  have hplace := le_of_skipBlanks hskip
  split at h
  · cases h
  · obtain ⟨left, -, h⟩ := exists_of_bind_eq_ok h
    split at h
    · cases h
      simp only
      omega
    · obtain ⟨⟨link, next⟩, hjoint, h⟩ := exists_of_bind_eq_ok h
      cases h
      have hnext := le_of_joint hjoint
      simp only
      omega

/-! ## The whole statement -/

/-- What comes of a scan that is under way. -/
def run (text : List Char) (st : State) : Except Failure Parts :=
  match _hround : round text st with
  | .error e => .error e
  | .ok (.ends parts) => .ok parts
  | .ok (.goes st') => run text st'
termination_by size text - st.place
decreasing_by
  have hlt := lt_of_round _hround
  omega

/-- The parts of the statement that a text is, or why the scan fails. -/
def scan (text : List Char) : Except Failure Parts := run text {}

end Scan

end Whiteboard
