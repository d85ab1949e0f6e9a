import Whiteboard.Proofs.Diagram.Occurrence

/-!
# Columns of a statement

Main statements: the column of an error is one of the columns of the text that was read, and the bracket that the error is
about stands there (`Statement.showsIn_of_readFrom`); every reference of a statement has its id at its column, and every `&` is
at the column that is kept of it (`Statement.standsAt_of_readFrom`).

The reader counts the characters that it passes, and it passes only characters that are there. So the number that goes with a
place is that of the characters before it (`Cursor.IsIn`), which is true at the start and kept by every step.
-/

namespace Whiteboard

open Text

/-! ## Texts at a column -/

namespace Text

/-- A text stands in a line at a column; columns are counted from one. -/
def StandsAt (mark line : List Char) (column : Nat) : Prop :=
  ∃ before after, line = before ++ (mark ++ after) ∧ column = before.length + 1

variable {mark line : List Char} {column : Nat}

/-- A column lies between the first character of the line and the end behind its last one. -/
theorem StandsAt.mem_columns (h : StandsAt mark line column) : 1 ≤ column ∧ column ≤ line.length + 1 := by
  obtain ⟨before, after, rfl, rfl⟩ := h
  simp only [List.length_append]
  omega

/-- What stands in a part of a line stands in the line, as many columns on as there are characters before the part. -/
theorem StandsAt.append (h : StandsAt mark line column) (front back : List Char) :
    StandsAt mark (front ++ (line ++ back)) (front.length + column) := by
  obtain ⟨before, after, rfl, rfl⟩ := h
  refine ⟨front ++ before, after ++ back, by simp, ?_⟩
  rw [List.length_append, Nat.add_assoc]

/-- What is found in a text is there, with the given texts before and after it. -/
theorem append_of_breakOn? {pat s before after : List Char} (h : breakOn? pat s = some (before, after)) :
    s = before ++ (pat ++ after) := by
  induction s generalizing before with
  | nil =>
    simp only [breakOn?] at h
    split at h
    · rename_i hnil
      cases h
      rw [List.isEmpty_iff.1 hnil]
      rfl
    · cases h
  | cons c cs ih =>
    rw [breakOn?] at h
    split at h
    · rename_i hprefix
      cases h
      obtain ⟨tail, htail⟩ := List.isPrefixOf_iff_prefix.1 hprefix
      rw [← htail, List.drop_left, List.nil_append]
    · obtain ⟨⟨before', after'⟩, hrest, heq⟩ := Option.map_eq_some_iff.1 h
      cases heq
      rw [ih hrest, List.cons_append]

end Text

/-! ## Places in a text -/

namespace Cursor

/-- The place lies in a text: what is left of the text stands behind as many characters as have been passed. -/
def IsIn (cur : Cursor) (text : List Char) : Prop := ∃ before, text = before ++ cur.rest ∧ cur.passed = before.length

variable {cur : Cursor} {text : List Char}

theorem isIn_start (text : List Char) : IsIn ⟨0, text⟩ text := ⟨[], rfl, rfl⟩

/-- A place stays in the text if no more characters are passed than there are. -/
theorem IsIn.advance (h : cur.IsIn text) {n : Nat} (hn : n ≤ cur.rest.length) : (cur.advance n).IsIn text := by
  obtain ⟨before, rfl, hpassed⟩ := h
  refine ⟨before ++ cur.rest.take n, ?_, ?_⟩
  · rw [List.append_assoc, Cursor.advance, List.take_append_drop]
  · rw [Cursor.advance, hpassed, List.length_append, List.length_take_of_le hn]

/-- Skipping blanks stays in the text. -/
theorem IsIn.skipBlanks (h : cur.IsIn text) : cur.skipBlanks.IsIn text :=
  h.advance (List.takeWhile_prefix _).length_le

/-- What comes next stands at the column of the place. -/
theorem IsIn.standsAt (h : cur.IsIn text) {mark : List Char} (hmark : mark <+: cur.rest) :
    StandsAt mark text cur.column := by
  obtain ⟨before, rfl, hpassed⟩ := h
  obtain ⟨after, hafter⟩ := hmark
  exact ⟨before, after, by rw [hafter], by rw [column, hpassed]⟩

end Cursor

/-! ## Errors -/

/-- The bracket that a fault is about. -/
def StatementFault.opener? : StatementFault → Option String
  | unknownBracket opener | unclosedBracket opener => some opener
  | nodeExpected | unexpected _ => none

/-- An error shows in a text: its column is one of the text, and the bracket that it is about stands there. -/
def StatementError.ShowsIn (e : StatementError) (text : List Char) : Prop :=
  StandsAt (e.fault.opener?.elim [] (·.toList)) text e.column

namespace Statement

variable {cur start next : Cursor} {text : List Char}

/-! ## Brackets and labels -/

/-- A token that the rest starts with is a prefix of it. -/
theorem prefix_of_startsWith {rest : List Char} {token : String} (h : startsWith rest token = true) :
    token.toList <+: rest :=
  List.isPrefixOf_iff_prefix.1 h

/-- A token that comes up within a text ends there. -/
theorem add_length_le_of_startsWith {rest : List Char} {k : Nat} {token : String} (hne : token ≠ "")
    (h : startsWith (rest.drop k) token = true) : k + token.length ≤ rest.length := by
  have hlength := (prefix_of_startsWith h).length_le
  have hpos : token.length ≠ 0 := by
    intro hzero
    exact hne (String.length_eq_zero_iff.1 hzero)
  rw [String.length_toList, List.length_drop] at hlength
  omega

/-- A label ends with its closing bracket within the text. -/
theorem length_of_readLabel? {closer rest label : List Char} {quoted : Bool} {n : Nat}
    (h : readLabel? closer rest = some (label, quoted, n)) : n ≤ rest.length := by
  unfold readLabel? at h
  split at h
  · simp only at h
    split at h
    · rename_i hclosed
      cases h
      have hlength := (List.isPrefixOf_iff_prefix.1 hclosed).length_le
      simp only [List.length_cons, List.length_drop] at hlength ⊢
      omega
    · cases h
  · obtain ⟨⟨before, after⟩, hbreak, heq⟩ := Option.map_eq_some_iff.1 h
    cases heq
    rw [append_of_breakOn? hbreak]
    simp only [List.length_append]
    omega

/-- Reading a shape stays in the text. -/
theorem isIn_of_readShape {span? : Option ShapeSpan} (h : readShape cur = .ok (span?, next)) (hcur : cur.IsIn text) :
    next.IsIn text := by
  unfold readShape at h
  split at h
  · cases h
  · split at h
    · cases h
      exact hcur
    · rename_i shape hshape
      split at h
      · cases h
      · rename_i label quoted length hlabel
        cases h
        have hbehind := length_of_readLabel? hlabel
        have hstarts := List.find?_some hshape
        have hopener := (prefix_of_startsWith hstarts).length_le
        rw [String.length_toList] at hopener
        rw [List.length_drop] at hbehind
        exact hcur.advance (by omega)

/-- The bracket that is unknown or not closed comes next. -/
theorem showsIn_of_readShape {e : StatementError} (h : readShape cur = .error e) (hcur : cur.IsIn text) :
    e.ShowsIn text := by
  unfold readShape at h
  split at h
  · rename_i opener hopener
    cases h
    have hstarts : startsWith cur.rest opener = true := List.find?_some hopener
    exact hcur.standsAt (prefix_of_startsWith hstarts)
  · split at h
    · cases h
    · rename_i shape hshape
      split at h
      · cases h
        have hstarts := List.find?_some hshape
        exact hcur.standsAt (prefix_of_startsWith hstarts)
      · cases h

/-! ## References -/

/-- The place behind the id of a reference. -/
theorem isIn_behind_identifier (h : start.IsIn text) :
    (start.skipBlanks.advance start.skipBlanks.identifier.length).IsIn text :=
  h.skipBlanks.advance (List.takeWhile_prefix _).length_le

/-- The id of a reference stands at its column. -/
theorem standsAt_of_readRef {ref : NodeRef} (h : readRef start = .ok (ref, next)) (hstart : start.IsIn text) :
    StandsAt ref.id.toList text ref.column ∧ next.IsIn text := by
  unfold readRef at h
  simp only at h
  split at h
  · cases h
  · obtain ⟨⟨span?, next'⟩, hshape, heq⟩ := exists_of_map_eq_ok h
    cases heq
    refine ⟨?_, isIn_of_readShape hshape (isIn_behind_identifier hstart)⟩
    rw [String.toList_ofList]
    exact hstart.skipBlanks.standsAt (List.takeWhile_prefix _)

/-- An error in a reference quotes what stands at its column. -/
theorem showsIn_of_readRef {e : StatementError} (h : readRef start = .error e) (hstart : start.IsIn text) :
    e.ShowsIn text := by
  unfold readRef at h
  simp only at h
  split at h
  · cases h
    exact hstart.skipBlanks.standsAt List.nil_prefix
  · exact showsIn_of_readShape (error_of_map_eq_error h) (isIn_behind_identifier hstart)

/-! ## Links -/

/-- A run is no longer than the text. -/
theorem run_le_length (c : Char) (s : List Char) : run c s ≤ s.length := (List.takeWhile_prefix _).length_le

/-- A plain arrow is no longer than the text. -/
theorem length_of_readPlainArrow? {rest : List Char} {n : Nat} (h : readPlainArrow? rest = some n) : n ≤ rest.length := by
  have hangle : ">".length = 1 := rfl
  have hdash : "-".length = 1 := rfl
  have hdashAngle : "->".length = 2 := rfl
  unfold readPlainArrow? at h
  simp only [Bool.and_eq_true, decide_eq_true_eq] at h
  split at h
  · rename_i hcond
    cases h
    have := add_length_le_of_startsWith (by decide) hcond.2
    omega
  · split at h
    · rename_i hcond
      cases h
      have := add_length_le_of_startsWith (by decide) hcond.2
      omega
    · split at h
      · rename_i hcond
        cases h
        have := add_length_le_of_startsWith (by decide) hcond.2
        omega
      · split at h
        · cases h
          exact run_le_length _ _
        · split at h
          · rename_i hcond
            cases h
            have := add_length_le_of_startsWith (by decide) hcond.2
            omega
          · cases h

/-- An arrow with a label inside is no longer than the text. -/
theorem length_of_readInlineArrow? {rest : List Char} {label : String} {n : Nat}
    (h : readInlineArrow? rest = some (label, n)) : n ≤ rest.length := by
  have hend : "-->".length = 3 := rfl
  unfold readInlineArrow? at h
  simp only [Bool.and_eq_true, decide_eq_true_eq] at h
  split at h
  · rename_i hcond
    cases h
    have := add_length_le_of_startsWith (by decide) hcond.1.1.1.2
    omega
  · cases h

/-- Reading an arrow stays in the text. -/
theorem isIn_of_readArrow? {arrow : Arrow} {text? : Option String} (h : readArrow? cur = some (arrow, text?, next))
    (hcur : cur.IsIn text) : next.IsIn text := by
  unfold readArrow? at h
  split at h
  · rename_i hinline
    cases h
    exact hcur.advance (length_of_readInlineArrow? hinline)
  · obtain ⟨n, hplain, heq⟩ := Option.map_eq_some_iff.1 h
    cases heq
    exact hcur.advance (length_of_readPlainArrow? hplain)

/-- Reading a link stays in the text: behind a label, both pipes and what stands between them have been passed. -/
theorem isIn_of_readLink {link : Link} (h : readLink cur = .ok (link, next)) (hcur : cur.IsIn text) : next.IsIn text := by
  unfold readLink at h
  split at h
  · cases h
  · rename_i behind harrow
    have hbehind := isIn_of_readArrow? harrow hcur
    split at h
    · rename_i passed rest hpipe
      have hrest := hbehind.skipBlanks
      rw [hpipe] at hrest
      simp only at h
      split at h
      · rename_i hclosed
        cases h
        have hlabel := hrest.advance (n := (rest.takeWhile (· != '|')).length + 2) (by simp; omega)
        rw [Cursor.advance, List.drop_succ_cons] at hlabel
        exact hlabel
      · cases h
    · cases h
      exact hbehind

/-- An error in a link quotes what stands at its column. -/
theorem showsIn_of_readLink {e : StatementError} (h : readLink cur = .error e) (hcur : cur.IsIn text) :
    e.ShowsIn text := by
  unfold readLink at h
  split at h
  · cases h
    exact hcur.standsAt List.nil_prefix
  · split at h
    · simp only at h
      split at h
      · cases h
      · cases h
        exact hcur.standsAt List.nil_prefix
    · cases h

/-! ## Chains -/

/-- Where a text is no statement, the error shows in it. -/
theorem showsIn_of_readFrom {e : StatementError} (h : readFrom start = .error e) (hstart : start.IsIn text) :
    e.ShowsIn text := by
  fun_induction readFrom start generalizing e with
  | case1 start e' href =>
    cases h
    exact showsIn_of_readRef href hstart
  | case2 start ref cur href hnext => cases h
  | case3 start ref cur href rest hnext ih =>
    have hcur := (standsAt_of_readRef href hstart).2
    exact ih (error_of_map_eq_error h) (hcur.skipBlanks.advance (by simp [hnext]))
  | case4 start ref cur href e' hlink =>
    cases h
    exact showsIn_of_readLink hlink (standsAt_of_readRef href hstart).2.skipBlanks
  | case5 start ref cur href link next hlink hnil hamp ih =>
    have hcur := (standsAt_of_readRef href hstart).2
    exact ih (error_of_map_eq_error h) (isIn_of_readLink hlink hcur.skipBlanks)

/-- The ids of all references, and every `&`, stand at the columns that are kept of them. -/
theorem standsAt_of_readFrom {s : Statement} (h : readFrom start = .ok s) (hstart : start.IsIn text) :
    (∀ ref ∈ s.refs, StandsAt ref.id.toList text ref.column) ∧ ∀ column ∈ s.ampersands, StandsAt ['&'] text column := by
  fun_induction readFrom start generalizing s with
  | case1 start e href => cases h
  | case2 start ref cur href hnext =>
    cases h
    exact ⟨List.forall_mem_singleton.2 (standsAt_of_readRef href hstart).1, List.forall_mem_nil _⟩
  | case3 start ref cur href rest hnext ih =>
    obtain ⟨s', hs, rfl⟩ := exists_of_map_eq_ok h
    obtain ⟨hid, hcur⟩ := standsAt_of_readRef href hstart
    obtain ⟨hrefs, hampersands⟩ := ih hs (hcur.skipBlanks.advance (by simp [hnext]))
    refine ⟨List.forall_mem_cons.2 ⟨hid, hrefs⟩, List.forall_mem_cons.2 ⟨?_, hampersands⟩⟩
    exact hcur.skipBlanks.standsAt (by rw [hnext]; exact ⟨rest, rfl⟩)
  | case4 start ref cur href e hlink => cases h
  | case5 start ref cur href link next hlink hnil hamp ih =>
    obtain ⟨s', hs, rfl⟩ := exists_of_map_eq_ok h
    obtain ⟨hid, hcur⟩ := standsAt_of_readRef href hstart
    obtain ⟨hrefs, hampersands⟩ := ih hs (isIn_of_readLink hlink hcur.skipBlanks)
    exact ⟨List.forall_mem_cons.2 ⟨hid, hrefs⟩, hampersands⟩

end Statement

end Whiteboard
