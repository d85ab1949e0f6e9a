import Whiteboard.Proofs.Diagram.Column

/-!
# The pieces of a statement

A statement stands in its text piece by piece: blanks, ids, the brackets, pipes and arrows, the labels between them, and
the `&` that joins two references. `Statement.Spelled` says which pieces these are, in which order, and at which columns the
ids and the `&`s stand. Main statements: a statement is spelled by the text that it is read from
(`Statement.exists_spelled_of_readFrom`); the ids among the pieces are those of its references, and the `&`s among them those
that it keeps, column by column (`Statement.Spelled.columns_eq`); and these are the `&`s of the text that stand in no label
(`Piece.mem_ampersands_iff`).

The reader is followed from place to place: what it passes between two places (`Cursor.Passes`) is the text of the pieces
there.
-/

namespace Whiteboard

open Text

/-! ## Pieces -/

/-- A piece of a statement as it stands in a text. -/
inductive Piece where
  | blanks (chars : List Char)
  | id (name : String)
  /-- A bracket, a pipe or an arrow, or a part of one; the quote beside a bracket counts in. -/
  | mark (chars : List Char)
  | label (chars : List Char)
  | ampersand
  deriving DecidableEq, Repr

namespace Piece

/-- The characters of a piece. -/
def chars : Piece → List Char
  | blanks chars | mark chars | label chars => chars
  | id name => name.toList
  | ampersand => ['&']

/-- The text that pieces make up. -/
def text (pieces : List Piece) : List Char := pieces.flatMap chars

/-- The pieces with their columns, where the first one stands at the given column. -/
def placed (column : Nat) : List Piece → List (Nat × Piece)
  | [] => []
  | piece :: rest => (column, piece) :: placed (column + piece.chars.length) rest

/-- The id of a piece that is one, with its column. -/
def idAt? : Nat × Piece → Option (Nat × String)
  | (column, id name) => some (column, name)
  | _ => none

/-- The column of a piece that is an `&`. -/
def ampersandAt? : Nat × Piece → Option Nat
  | (column, ampersand) => some column
  | _ => none

/-- The ids among the pieces, with their columns. -/
def ids (column : Nat) (pieces : List Piece) : List (Nat × String) := (placed column pieces).filterMap idAt?

/-- The columns of the pieces that are an `&`. -/
def ampersands (column : Nat) (pieces : List Piece) : List Nat := (placed column pieces).filterMap ampersandAt?

/-- A column lies in a label. -/
def IsInLabel (start : Nat) (pieces : List Piece) (column : Nat) : Prop :=
  ∃ first chars, (first, label chars) ∈ placed start pieces ∧ first ≤ column ∧ column < first + chars.length

/-- Apart from labels and the `&` itself no piece holds an `&`. -/
def IsPlain : Piece → Prop
  | label _ | ampersand => True
  | piece => '&' ∉ piece.chars

@[simp] theorem text_nil : text [] = [] := rfl

@[simp] theorem text_cons (piece : Piece) (rest : List Piece) : text (piece :: rest) = piece.chars ++ text rest := by
  rw [text, List.flatMap_cons, ← text]

@[simp] theorem text_append (pieces rest : List Piece) : text (pieces ++ rest) = text pieces ++ text rest :=
  List.flatMap_append

theorem placed_append (column : Nat) (pieces rest : List Piece) :
    placed column (pieces ++ rest) = placed column pieces ++ placed (column + (text pieces).length) rest := by
  induction pieces generalizing column with
  | nil => rfl
  | cons piece pieces ih =>
    rw [List.cons_append, placed, ih, placed, List.cons_append, text_cons, List.length_append, Nat.add_assoc]

theorem ids_append (column : Nat) (pieces rest : List Piece) :
    ids column (pieces ++ rest) = ids column pieces ++ ids (column + (text pieces).length) rest := by
  rw [ids, placed_append, List.filterMap_append, ids, ids]

theorem ampersands_append (column : Nat) (pieces rest : List Piece) :
    ampersands column (pieces ++ rest) =
      ampersands column pieces ++ ampersands (column + (text pieces).length) rest := by
  rw [ampersands, placed_append, List.filterMap_append, ampersands, ampersands]

/-- No piece stands before the first column. -/
theorem le_of_mem_placed {start column : Nat} {piece : Piece} {pieces : List Piece}
    (h : (column, piece) ∈ placed start pieces) : start ≤ column := by
  induction pieces generalizing start with
  | nil => cases h
  | cons first rest ih =>
    rcases List.mem_cons.1 h with heq | h
    · cases heq
      exact Nat.le_refl _
    · exact Nat.le_trans (Nat.le_add_right _ _) (ih h)

/-- A label comes up to a column within the first piece, or within the rest. -/
theorem isInLabel_cons_iff (start : Nat) (piece : Piece) (rest : List Piece) (column : Nat) :
    IsInLabel start (piece :: rest) column ↔
      (∃ chars, piece = label chars ∧ start ≤ column ∧ column < start + chars.length) ∨
        IsInLabel (start + piece.chars.length) rest column := by
  simp only [IsInLabel, placed, List.mem_cons, Prod.mk.injEq]
  constructor
  · rintro ⟨first, chars, ⟨rfl, heq⟩ | h, hcolumn⟩
    · exact Or.inl ⟨chars, heq.symm, hcolumn⟩
    · exact Or.inr ⟨first, chars, h, hcolumn⟩
  · rintro (⟨chars, rfl, hcolumn⟩ | ⟨first, chars, h, hcolumn⟩)
    · exact ⟨start, chars, Or.inl ⟨rfl, rfl⟩, hcolumn⟩
    · exact ⟨first, chars, Or.inr h, hcolumn⟩

/-- The first piece is an ampersand, or the column is that of a later one. -/
theorem mem_ampersands_cons_iff (start : Nat) (piece : Piece) (rest : List Piece) (column : Nat) :
    column ∈ ampersands start (piece :: rest) ↔
      piece = ampersand ∧ column = start ∨ column ∈ ampersands (start + piece.chars.length) rest := by
  cases piece <;> simp [ampersands, placed, ampersandAt?]

/-- The first piece holds an `&` only as an `&` or within a label. -/
theorem IsPlain.of_getElem? {piece : Piece} (h : piece.IsPlain) {i : Nat} (hi : piece.chars[i]? = some '&') :
    piece = ampersand ∧ i = 0 ∨ ∃ chars, piece = label chars ∧ i < chars.length := by
  cases piece with
  | label chars => exact Or.inr ⟨chars, rfl, (List.getElem?_eq_some_iff.1 hi).1⟩
  | ampersand =>
    have hlength : i < 1 := (List.getElem?_eq_some_iff.1 hi).1
    exact Or.inl ⟨rfl, by omega⟩
  | blanks | id | mark => exact absurd (List.mem_of_getElem? hi) h

/-- The pieces that are an `&` are the places where an `&` stands outside every label. -/
theorem mem_ampersands_iff {pieces : List Piece} (h : ∀ piece ∈ pieces, piece.IsPlain) (start column : Nat) :
    column ∈ ampersands start pieces ↔
      (∃ i, (text pieces)[i]? = some '&' ∧ column = start + i) ∧ ¬ IsInLabel start pieces column := by
  induction pieces generalizing start with
  | nil => simp [ampersands, placed]
  | cons piece rest ih =>
    rw [List.forall_mem_cons] at h
    rw [mem_ampersands_cons_iff, isInLabel_cons_iff, ih h.2, text_cons]
    constructor
    · rintro (⟨rfl, rfl⟩ | ⟨⟨i, hi, rfl⟩, hout⟩)
      · refine ⟨⟨0, rfl, rfl⟩, ?_⟩
        rintro (⟨chars, ⟨⟩, -⟩ | ⟨first, chars, hmem, hle, -⟩)
        have hbehind : column + 1 ≤ first := le_of_mem_placed hmem
        omega
      · refine ⟨⟨piece.chars.length + i, ?_, Nat.add_assoc _ _ _⟩, ?_⟩
        · rw [List.getElem?_append_right (Nat.le_add_right _ _), Nat.add_sub_cancel_left]
          exact hi
        · rintro (⟨chars, rfl, -, hlt⟩ | hin)
          · simp only [Piece.chars] at hlt
            omega
          · exact hout hin
    · rintro ⟨⟨i, hi, rfl⟩, hout⟩
      rw [not_or] at hout
      by_cases hlt : i < piece.chars.length
      · rw [List.getElem?_append_left hlt] at hi
        rcases h.1.of_getElem? hi with ⟨rfl, rfl⟩ | ⟨chars, rfl, hin⟩
        · exact Or.inl ⟨rfl, rfl⟩
        · exact absurd ⟨chars, rfl, Nat.le_add_right _ _, Nat.add_lt_add_left hin _⟩ hout.1
      · rw [List.getElem?_append_right (Nat.le_of_not_lt hlt)] at hi
        exact Or.inr ⟨⟨_, hi, by omega⟩, hout.2⟩

end Piece

/-! ## Spelling -/

/-- The quotes at the two sides of a label, if there are any. -/
def ShapeSpan.quote (span : ShapeSpan) : List Char := if span.quoted then ['"'] else []

/-- The pieces of a bracket pair: the label stands between the brackets, with quotes around it or without. -/
def ShapeSpan.pieces (span : ShapeSpan) : List Piece :=
  [.mark (span.shape.opener.toList ++ span.quote), .label span.label.toList, .mark (span.quote ++ span.shape.closer.toList)]

/-- A label does not hold what ends it: a quote if it stands between quotes, and else the closing bracket. -/
structure ShapeSpan.IsEnclosed (span : ShapeSpan) : Prop where
  quoted : span.quoted = true → '"' ∉ span.label.toList
  bare : span.quoted = false → ¬ span.shape.closer.toList <:+: span.label.toList

/-- A reference is spelled by its id and its bracket pair, with blanks before and behind. -/
inductive NodeRef.Spelled (ref : NodeRef) (column : Nat) : List Piece → Prop
  | intro {before behind : List Char} (hbefore : ∀ c ∈ before, isBlank c = true) (hbehind : ∀ c ∈ behind, isBlank c = true)
      (hid : IsWord ref.id) (hcolumn : ref.column = column + before.length)
      (hspan : ∀ span ∈ ref.span?, span.IsEnclosed) :
      Spelled ref column (.blanks before :: .id ref.id :: (ref.span?.elim [] (·.pieces) ++ [.blanks behind]))

/-- The spellings of an arrow without text. -/
inductive Arrow.IsToken : List Char → Prop
  | dotted {n : Nat} (hn : 1 ≤ n) : IsToken ('-' :: List.replicate n '.' ++ ['-', '>'])
  | dottedOpen {n : Nat} (hn : 1 ≤ n) : IsToken ('-' :: List.replicate n '.' ++ ['-'])
  | dashes {n : Nat} (hn : 2 ≤ n) : IsToken (List.replicate n '-' ++ ['>'])
  | equals {n : Nat} (hn : 2 ≤ n) : IsToken (List.replicate n '=' ++ ['>'])
  | dashesOpen {n : Nat} (hn : 3 ≤ n) : IsToken (List.replicate n '-')

/-- A text inside an arrow begins and ends with a blank and holds neither a dash nor a pipe nor an angle. -/
structure Arrow.IsInside (text : List Char) : Prop where
  chars : ∀ c ∈ text, c ≠ '-' ∧ c ≠ '|' ∧ c ≠ '>'
  length : 3 ≤ text.length
  first : text.head?.any isBlank = true
  last : text.getLast?.any isBlank = true

/-- An arrow is spelled by its token, or by its two halves around the text inside it. -/
inductive Arrow.Spelled : Arrow → Option String → List Piece → Prop
  | plain {token : List Char} (htoken : IsToken token) : Spelled (Statement.arrowOf token) none [.mark token]
  | around {text : List Char} (htext : IsInside text) :
      Spelled .other (some (String.ofList (trim text))) [.mark ['-', '-'], .label text, .mark ['-', '-', '>']]

/-- A link is spelled by its arrow, with a label between pipes behind it or without. -/
inductive Link.Spelled (column : Nat) : Link → List Piece → Prop
  | bare {arrow : Arrow} {text? : Option String} {pieces : List Piece} (harrow : arrow.Spelled text? pieces) :
      Spelled column ⟨arrow, text?, column⟩ pieces
  | labelled {arrow : Arrow} {text? : Option String} {pieces : List Piece} (harrow : arrow.Spelled text? pieces)
      {blanks label : List Char} (hblanks : ∀ c ∈ blanks, isBlank c = true) (hlabel : '|' ∉ label) :
      Spelled column ⟨arrow, some (String.ofList (trim label)), column⟩
        (pieces ++ [.blanks blanks, .mark ['|'], .label label, .mark ['|']])

/-- A statement is spelled by its references with an `&` or a link between each two of them; the first piece stands at the
given column. -/
inductive Statement.Spelled : Nat → Statement → List Piece → Prop
  | last {column : Nat} {ref : NodeRef} {pieces : List Piece} (href : ref.Spelled column pieces) :
      Spelled column ⟨⟨ref, []⟩, []⟩ pieces
  | ampersand {column : Nat} {ref : NodeRef} {s : Statement} {pieces rest : List Piece} (href : ref.Spelled column pieces)
      (hs : Spelled (column + (Piece.text pieces).length + 1) s rest) :
      Spelled column (s.addRef ref (column + (Piece.text pieces).length)) (pieces ++ .ampersand :: rest)
  | link {column : Nat} {ref : NodeRef} {link : Link} {s : Statement} {pieces joint rest : List Piece}
      (href : ref.Spelled column pieces) (hlink : link.Spelled (column + (Piece.text pieces).length) joint)
      (hs : Spelled (column + (Piece.text pieces).length + (Piece.text joint).length) s rest) :
      Spelled column (s.addLink ref link) (pieces ++ (joint ++ rest))

namespace Cursor

/-! ## What the reader passes -/

/-- Between two places of a text stand the given characters. -/
def Passes (cur : Cursor) (between : List Char) (next : Cursor) : Prop :=
  cur.rest = between ++ next.rest ∧ next.passed = cur.passed + between.length

variable {cur next last : Cursor} {between : List Char}

theorem Passes.trans {more : List Char} (h : cur.Passes between next) (h' : next.Passes more last) :
    cur.Passes (between ++ more) last := by
  refine ⟨?_, ?_⟩
  · rw [h.1, h'.1, List.append_assoc]
  · rw [h'.2, h.2, List.length_append, Nat.add_assoc]

/-- The reader passes what it goes over. -/
theorem passes_advance (h : between <+: cur.rest) : cur.Passes between (cur.advance between.length) :=
  ⟨(List.prefix_iff_eq_append.1 h).symm, rfl⟩

/-- Skipping blanks it passes blanks. -/
theorem exists_passes_skipBlanks (cur : Cursor) :
    ∃ blanks, (∀ c ∈ blanks, isBlank c = true) ∧ cur.Passes blanks cur.skipBlanks :=
  ⟨_, fun _ hc => List.mem_takeWhile_imp hc, passes_advance (List.takeWhile_prefix _)⟩

/-- Advancing passes the characters that are taken. -/
theorem passes_take (cur : Cursor) {n : Nat} (h : n ≤ cur.rest.length) : cur.Passes (cur.rest.take n) (cur.advance n) := by
  refine ⟨(List.take_append_drop _ _).symm, ?_⟩
  rw [advance, List.length_take_of_le h]

/-- Passing a text moves the column by its length. -/
theorem Passes.column_eq (h : cur.Passes between next) : next.column = cur.column + between.length := by
  rw [column, h.2, column, Nat.add_right_comm]

end Cursor

namespace Statement

variable {cur start next : Cursor}

/-! ## References -/

/-- What comes before a text that is found does not hold it. -/
theorem not_infix_of_breakOn? {pat s before after : List Char} (hpat : pat ≠ [])
    (h : breakOn? pat s = some (before, after)) : ¬ pat <:+: before := by
  induction s generalizing before with
  | nil =>
    simp only [breakOn?] at h
    split at h
    · cases h
      rwa [List.infix_nil]
    · cases h
  | cons c cs ih =>
    rw [breakOn?] at h
    split at h
    · cases h
      rwa [List.infix_nil]
    · rename_i hprefix
      obtain ⟨⟨before', after'⟩, hrest, heq⟩ := Option.map_eq_some_iff.1 h
      cases heq
      rw [List.infix_cons_iff, not_or]
      refine ⟨fun hfirst => hprefix (List.isPrefixOf_iff_prefix.2 ?_), ih hrest⟩
      rw [append_of_breakOn? hrest]
      exact hfirst.trans (List.prefix_append (c :: before') _)

/-- A shape is spelled with its brackets, its quotes and its label. -/
theorem text_pieces (span : ShapeSpan) : Piece.text span.pieces =
    span.shape.opener.toList ++ (span.quote ++ (span.label.toList ++ (span.quote ++ span.shape.closer.toList))) := by
  simp [ShapeSpan.pieces, Piece.chars]

/-- Behind the opening bracket stands the label, between its quotes if it has any, and the closing bracket follows. -/
theorem exists_of_readLabel? {shape : Shape} {rest label : List Char} {quoted : Bool} {n : Nat}
    (h : readLabel? shape.closer.toList rest = some (label, quoted, n)) :
    ∃ span : ShapeSpan, span = ⟨shape, String.ofList label, quoted⟩ ∧ span.IsEnclosed ∧
      (∃ after, shape.opener.toList ++ rest = Piece.text span.pieces ++ after) ∧
      shape.opener.length + n = (Piece.text span.pieces).length := by
  refine ⟨_, rfl, ?_⟩
  unfold readLabel? at h
  split at h
  · rename_i rest
    simp only at h
    split at h
    · rename_i hclosed
      cases h
      obtain ⟨after, hafter⟩ := List.isPrefixOf_iff_prefix.1 hclosed
      refine ⟨⟨fun _ hquote => ?_, nofun⟩, ⟨after, ?_⟩, ?_⟩
      · rw [String.toList_ofList] at hquote
        simpa using List.mem_takeWhile_imp hquote
      · conv_lhs => rw [← List.prefix_iff_eq_append.1 (List.takeWhile_prefix (l := rest) (· != '"')), ← hafter]
        simp [text_pieces, ShapeSpan.quote]
      · simp [text_pieces, ShapeSpan.quote, String.length_toList]
        omega
    · cases h
  · obtain ⟨⟨before, after⟩, hbreak, heq⟩ := Option.map_eq_some_iff.1 h
    cases heq
    have hcloser : shape.closer.toList ≠ [] := by cases shape <;> simp [Shape.closer]
    refine ⟨⟨nofun, fun _ => ?_⟩, ⟨after, ?_⟩,
      by simp [text_pieces, ShapeSpan.quote, String.length_toList]⟩
    · rw [String.toList_ofList]
      exact not_infix_of_breakOn? hcloser hbreak
    · rw [append_of_breakOn? hbreak]
      simp [text_pieces, ShapeSpan.quote]

/-- The bracket pair behind an id, if there is one. -/
theorem passes_of_readShape {span? : Option ShapeSpan} (h : readShape cur = .ok (span?, next)) :
    cur.Passes (Piece.text (span?.elim [] (·.pieces))) next ∧ ∀ span ∈ span?, span.IsEnclosed := by
  unfold readShape at h
  split at h
  · cases h
  · split at h
    · cases h
      exact ⟨⟨rfl, rfl⟩, nofun⟩
    · rename_i shape hshape
      split at h
      · cases h
      · rename_i label quoted length hlabel
        cases h
        have hstarts : startsWith cur.rest shape.opener = true :=
          List.find?_some (p := fun s : Shape => startsWith cur.rest s.opener) hshape
        obtain ⟨behind, hbehind⟩ := prefix_of_startsWith hstarts
        rw [← hbehind, ← String.length_toList, List.drop_left] at hlabel
        obtain ⟨span, rfl, henclosed, ⟨after, hafter⟩, hlength⟩ := exists_of_readLabel? hlabel
        rw [hlength]
        refine ⟨Cursor.passes_advance ⟨after, ?_⟩, ?_⟩
        · rw [← hbehind, hafter]
          rfl
        · rintro span ⟨⟩
          exact henclosed

/-- A reference, with the blanks before and behind it. -/
theorem exists_spelled_of_readRef {ref : NodeRef} (h : readRef start = .ok (ref, cur)) :
    ∃ pieces, ref.Spelled start.column pieces ∧ start.Passes (Piece.text pieces) cur.skipBlanks := by
  have hword : IsWord ref.id := (readRef_spec (p := fun _ => True) h (by simp)).1.id_word
  unfold readRef at h
  simp only at h
  split at h
  · cases h
  · obtain ⟨⟨span?, next⟩, hshape, heq⟩ := exists_of_map_eq_ok h
    cases heq
    obtain ⟨hspan, henclosed⟩ := passes_of_readShape hshape
    have hid : start.skipBlanks.Passes start.skipBlanks.identifier
        (start.skipBlanks.advance start.skipBlanks.identifier.length) :=
      Cursor.passes_advance (List.takeWhile_prefix _)
    obtain ⟨before, hbefore, hstart⟩ := start.exists_passes_skipBlanks
    obtain ⟨behind, hbehind, hend⟩ := next.exists_passes_skipBlanks
    refine ⟨_, .intro hbefore hbehind hword hstart.column_eq henclosed, ?_⟩
    simpa [Piece.chars] using hstart.trans (hid.trans (hspan.trans hend))

/-! ## Links -/

/-- A dash and the dots behind it. -/
theorem take_dots {rest : List Char} (h : run '-' rest = 1) :
    rest.take (1 + run '.' (rest.drop 1)) = '-' :: List.replicate (run '.' (rest.drop 1)) '.' := by
  have hdash := take_run '-' rest
  rw [h] at hdash
  rw [List.take_add, hdash, take_run]
  rfl

/-- What is read as a plain arrow is an arrow token. -/
theorem isToken_of_readPlainArrow? {rest : List Char} {n : Nat} (h : readPlainArrow? rest = some n) :
    Arrow.IsToken (rest.take n) := by
  unfold readPlainArrow? at h
  simp only [Bool.and_eq_true, decide_eq_true_eq] at h
  split at h
  · rename_i hcond
    cases h
    rw [take_add_token hcond.2 (by simp; omega), take_dots hcond.1.1]
    exact .dotted hcond.1.2
  · split at h
    · rename_i hcond
      cases h
      rw [take_add_token hcond.2 (by simp), take_run]
      exact .dashes hcond.1
    · split at h
      · rename_i hcond
        cases h
        rw [take_add_token hcond.2 (by simp), take_run]
        exact .equals hcond.1
      · split at h
        · rename_i hcond
          cases h
          rw [take_run]
          exact .dashesOpen hcond
        · split at h
          · rename_i hcond
            cases h
            rw [take_add_token hcond.2 (by simp; omega), take_dots hcond.1.1]
            exact .dottedOpen hcond.1.2
          · cases h

/-- An arrow around its text. -/
theorem exists_of_readInlineArrow? {rest : List Char} {label : String} {n : Nat}
    (h : readInlineArrow? rest = some (label, n)) :
    ∃ text, label = String.ofList (trim text) ∧ Arrow.IsInside text ∧
      rest.take n = ['-', '-'] ++ (text ++ ['-', '-', '>']) := by
  unfold readInlineArrow? at h
  simp only [Bool.and_eq_true, decide_eq_true_eq] at h
  split at h
  · rename_i hcond
    cases h
    obtain ⟨⟨⟨⟨hopened, hclosed⟩, hlength⟩, hfirst⟩, hlast⟩ := hcond
    refine ⟨_, rfl, ⟨?_, hlength, hfirst, hlast⟩, ?_⟩
    · intro c hc
      simpa [and_assoc] using List.mem_takeWhile_imp hc
    · have hdashes : rest.take 2 = ['-', '-'] := (List.prefix_iff_eq_take.1 (prefix_of_startsWith hopened)).symm
      rw [take_add_token hclosed (by simp; omega), List.take_add, hdashes,
        ← List.prefix_iff_eq_take.1 (List.takeWhile_prefix _), List.append_assoc]
      rfl
  · cases h

/-- The arrow that comes next. -/
theorem exists_spelled_of_readArrow? {arrow : Arrow} {text? : Option String}
    (h : readArrow? cur = some (arrow, text?, next)) :
    ∃ pieces, arrow.Spelled text? pieces ∧ cur.Passes (Piece.text pieces) next := by
  unfold readArrow? at h
  split at h
  · rename_i label n hinline
    cases h
    obtain ⟨text, rfl, htext, htake⟩ := exists_of_readInlineArrow? hinline
    have hpassed := cur.passes_take (length_of_readInlineArrow? hinline)
    rw [htake] at hpassed
    exact ⟨_, .around htext, by simpa [Piece.chars] using hpassed⟩
  · obtain ⟨n, hplain, heq⟩ := Option.map_eq_some_iff.1 h
    cases heq
    have hpassed := cur.passes_take (length_of_readPlainArrow? hplain)
    exact ⟨_, .plain (isToken_of_readPlainArrow? hplain), by simpa [Piece.chars] using hpassed⟩

/-- A label and the two pipes around it. -/
theorem passes_label (passed : Nat) {rest : List Char} (hclosed : (rest.takeWhile (· != '|')).length < rest.length) :
    (⟨passed, '|' :: rest⟩ : Cursor).Passes ('|' :: (rest.takeWhile (· != '|') ++ ['|']))
      ⟨passed + (rest.takeWhile (· != '|')).length + 2, rest.drop ((rest.takeWhile (· != '|')).length + 1)⟩ := by
  obtain ⟨c, hc, hrest⟩ := exists_of_length_takeWhile_lt hclosed
  obtain rfl : c = '|' := by simpa using hc
  refine ⟨?_, ?_⟩
  · conv_lhs => rw [hrest]
    simp
  · simp only [List.length_cons, List.length_append, List.length_nil]
    omega

/-- The link that comes next. -/
theorem exists_spelled_of_readLink {link : Link} (h : readLink cur = .ok (link, next)) :
    ∃ pieces, link.Spelled cur.column pieces ∧ cur.Passes (Piece.text pieces) next := by
  unfold readLink at h
  split at h
  · cases h
  · rename_i arrow text? behind harrow
    obtain ⟨pieces, hpieces, hpassed⟩ := exists_spelled_of_readArrow? harrow
    split at h
    · rename_i passed rest hpipe
      simp only at h
      split at h
      · rename_i hclosed
        cases h
        have hlabel : '|' ∉ rest.takeWhile (· != '|') := fun hmem => by simpa using List.mem_takeWhile_imp hmem
        obtain ⟨blanks, hblanks, hskipped⟩ := behind.exists_passes_skipBlanks
        rw [hpipe] at hskipped
        refine ⟨_, .labelled hpieces hblanks hlabel, ?_⟩
        simpa [Piece.chars] using hpassed.trans (hskipped.trans (passes_label passed hclosed))
      · cases h
    · cases h
      exact ⟨pieces, .bare hpieces, hpassed⟩

/-! ## Statements -/

/-- A statement is spelled by the text that it is read from. -/
theorem exists_spelled_of_readFrom {s : Statement} (h : readFrom start = .ok s) :
    ∃ pieces, s.Spelled start.column pieces ∧ Piece.text pieces = start.rest := by
  fun_induction readFrom start generalizing s with
  | case1 start e href => cases h
  | case2 start ref cur href hnext =>
    cases h
    obtain ⟨pieces, hpieces, hpassed⟩ := exists_spelled_of_readRef href
    refine ⟨pieces, .last hpieces, ?_⟩
    rw [hpassed.1, hnext, List.append_nil]
  | case3 start ref cur href rest hnext ih =>
    obtain ⟨s', hs, rfl⟩ := exists_of_map_eq_ok h
    obtain ⟨pieces, hpieces, hpassed⟩ := exists_spelled_of_readRef href
    obtain ⟨more, hmore, htext⟩ := ih hs
    have hampersand : cur.skipBlanks.Passes ['&'] (cur.skipBlanks.advance 1) :=
      Cursor.passes_advance ⟨rest, hnext.symm⟩
    rw [hampersand.column_eq, hpassed.column_eq] at hmore
    rw [hpassed.column_eq]
    refine ⟨pieces ++ .ampersand :: more, .ampersand hpieces hmore, ?_⟩
    rw [Piece.text_append, Piece.text_cons, htext, hpassed.1, hampersand.1]
    rfl
  | case4 start ref cur href e hlink => cases h
  | case5 start ref cur href link next hlink hnil hamp ih =>
    obtain ⟨s', hs, rfl⟩ := exists_of_map_eq_ok h
    obtain ⟨pieces, hpieces, hpassed⟩ := exists_spelled_of_readRef href
    obtain ⟨joint, hjoint, hthrough⟩ := exists_spelled_of_readLink hlink
    obtain ⟨more, hmore, htext⟩ := ih hs
    rw [hpassed.column_eq] at hjoint
    rw [hthrough.column_eq, hpassed.column_eq] at hmore
    refine ⟨pieces ++ (joint ++ more), .link hpieces hjoint hmore, ?_⟩
    rw [Piece.text_append, Piece.text_append, htext, hpassed.1, hthrough.1]

end Statement

/-! ## What a spelling tells -/

/-- Blanks hold no ampersand. -/
theorem Piece.isPlain_blanks {chars : List Char} (h : ∀ c ∈ chars, isBlank c = true) : (blanks chars).IsPlain := by
  intro hmem
  exact absurd (h _ hmem) (by decide)

/-- An id holds no ampersand of its own. -/
theorem Piece.isPlain_id {name : String} (h : IsWord name) : (id name).IsPlain := by
  intro hmem
  exact absurd (h.2 _ hmem) (by decide)

/-- The pieces of a shape are plain. -/
theorem ShapeSpan.isPlain_pieces (span : ShapeSpan) : ∀ piece ∈ span.pieces, piece.IsPlain := by
  have hquote : '&' ∉ span.quote := by
    unfold quote
    split <;> decide
  have hbrackets : '&' ∉ span.shape.opener.toList ∧ '&' ∉ span.shape.closer.toList := by
    cases span.shape <;> decide
  simp [pieces, Piece.IsPlain, Piece.chars, hquote, hbrackets]

/-- An arrow token holds no ampersand. -/
theorem Arrow.IsToken.ampersand_notMem {token : List Char} (h : IsToken token) : '&' ∉ token := by
  cases h <;> simp

variable {column : Nat} {pieces : List Piece}

namespace NodeRef.Spelled

variable {ref : NodeRef}

/-- The pieces of a reference are plain. -/
theorem isPlain (h : ref.Spelled column pieces) : ∀ piece ∈ pieces, piece.IsPlain := by
  obtain ⟨hbefore, hbehind, hid, hcolumn, hspan⟩ := h
  rw [List.forall_mem_cons, List.forall_mem_cons, List.forall_mem_append, List.forall_mem_singleton]
  refine ⟨Piece.isPlain_blanks hbefore, Piece.isPlain_id hid, ?_, Piece.isPlain_blanks hbehind⟩
  cases ref.span? with
  | none => exact List.forall_mem_nil _
  | some span => exact span.isPlain_pieces

/-- A reference has one id, at its column, and no `&`. -/
theorem columns_eq (h : ref.Spelled column pieces) :
    Piece.ids column pieces = [(ref.column, ref.id)] ∧ Piece.ampersands column pieces = [] := by
  obtain ⟨hbefore, hbehind, hid, hcolumn, hspan⟩ := h
  rw [hcolumn]
  cases ref.span? <;> exact ⟨rfl, rfl⟩

end NodeRef.Spelled

namespace Arrow.Spelled

variable {arrow : Arrow} {text? : Option String}

/-- The pieces of an arrow are plain. -/
theorem isPlain (h : arrow.Spelled text? pieces) : ∀ piece ∈ pieces, piece.IsPlain := by
  cases h with
  | plain htoken => exact List.forall_mem_singleton.2 htoken.ampersand_notMem
  | around htext => simp [Piece.IsPlain, Piece.chars]

/-- An arrow holds neither ids nor ampersands between groups. -/
theorem columns_eq (h : arrow.Spelled text? pieces) :
    Piece.ids column pieces = [] ∧ Piece.ampersands column pieces = [] := by
  cases h <;> exact ⟨rfl, rfl⟩

end Arrow.Spelled

namespace Link.Spelled

variable {link : Link}

/-- The pieces of a link are plain. -/
theorem isPlain (h : link.Spelled column pieces) : ∀ piece ∈ pieces, piece.IsPlain := by
  cases h with
  | bare harrow => exact harrow.isPlain
  | labelled harrow hblanks hlabel =>
    have hpipe : (Piece.mark ['|']).IsPlain := by simp [Piece.IsPlain, Piece.chars]
    rw [List.forall_mem_append, List.forall_mem_cons, List.forall_mem_cons, List.forall_mem_cons, List.forall_mem_singleton]
    exact ⟨harrow.isPlain, Piece.isPlain_blanks hblanks, hpipe, trivial, hpipe⟩

/-- A link has neither an id nor an `&`, whatever its label holds. -/
theorem columns_eq (h : link.Spelled column pieces) :
    Piece.ids column pieces = [] ∧ Piece.ampersands column pieces = [] := by
  cases h with
  | bare harrow => exact harrow.columns_eq
  | labelled harrow hblanks hlabel =>
    rw [Piece.ids_append, Piece.ampersands_append, harrow.columns_eq.1, harrow.columns_eq.2]
    exact ⟨rfl, rfl⟩

end Link.Spelled

namespace Statement.Spelled

variable {s : Statement}

/-- The pieces of a statement are plain. -/
theorem isPlain (h : s.Spelled column pieces) : ∀ piece ∈ pieces, piece.IsPlain := by
  induction h with
  | last href => exact href.isPlain
  | ampersand href hs ih => exact List.forall_mem_append.2 ⟨href.isPlain, List.forall_mem_cons.2 ⟨trivial, ih⟩⟩
  | link href hlink hs ih =>
    exact List.forall_mem_append.2 ⟨href.isPlain, List.forall_mem_append.2 ⟨hlink.isPlain, ih⟩⟩

/-- The ids of the references, and the `&`s between them, are the pieces that are such, each with its column. -/
theorem columns_eq (h : s.Spelled column pieces) :
    Piece.ids column pieces = s.refs.map (fun ref => (ref.column, ref.id)) ∧
      Piece.ampersands column pieces = s.ampersands := by
  induction h with
  | last href => exact href.columns_eq
  | ampersand href hs ih =>
    rw [Piece.ids_append, Piece.ampersands_append, href.columns_eq.1, href.columns_eq.2, refs_addRef, List.map_cons,
      ← ih.1]
    exact ⟨rfl, congrArg (_ :: ·) ih.2⟩
  | link href hlink hs ih =>
    rw [Piece.ids_append, Piece.ids_append, Piece.ampersands_append, Piece.ampersands_append, href.columns_eq.1,
      href.columns_eq.2, hlink.columns_eq.1, hlink.columns_eq.2, ih.1, ih.2]
    exact ⟨rfl, rfl⟩

end Statement.Spelled

end Whiteboard
