import Whiteboard.Proofs.Diagram.Spelling

/-!
# What an error quotes

An error of a statement gives a column and quotes a piece of the text. Main statement (`Statement.error_in_place`): the column
is one of the text, and what is quoted stands there, with one exception. A label that follows an arrow and is not closed is
quoted without the arrow and the pipe before it, while the column is that of the arrow (`Statement.error_misplaced`).

The column is that of the place where a part of the statement begins, and the reader has passed nothing of that part but blanks
(`Statement.exists_place_of_readFrom`).
-/

namespace Whiteboard

open Text

/-- An arrow comes next, and behind it and blanks a label that is opened by a pipe and not closed. -/
def OpensLabel (rest label : List Char) : Prop :=
  ∃ (arrow : Arrow) (text? : Option String) (pieces : List Piece) (blanks : List Char), arrow.Spelled text? pieces ∧
    (∀ c ∈ blanks, isBlank c = true) ∧ '|' ∉ label ∧ rest = Piece.text pieces ++ (blanks ++ '|' :: label)

namespace StatementFault

/-- A fault is about what comes next: a bracket that is unknown or not closed comes next, what is unexpected is all that
comes, and where a node is expected there comes neither an id nor a blank. -/
def Quotes (fault : StatementFault) (rest : List Char) : Prop :=
  match fault with
  | unknownBracket opener | unclosedBracket opener => opener.toList <+: rest
  | nodeExpected => ∀ c ∈ rest.head?, isIdChar c = false ∧ isBlank c = false
  | unexpected quoted => quoted.toList = rest

/-- A fault is about a label that is not closed. -/
def QuotesOpenLabel (fault : StatementFault) (rest : List Char) : Prop :=
  ∃ label, fault = unexpected (String.ofList label) ∧ OpensLabel rest label

/-- A label that is not closed is not all that comes next: the pipe before it is left out. -/
theorem not_quotes_of_quotesOpenLabel {fault : StatementFault} {rest : List Char} (h : fault.QuotesOpenLabel rest) :
    ¬ fault.Quotes rest := by
  obtain ⟨label, rfl, arrow, text?, pieces, blanks, -, -, -, rfl⟩ := h
  intro hquotes
  have hlength := congrArg List.length hquotes
  simp only [String.toList_ofList, List.length_append, List.length_cons] at hlength
  omega

end StatementFault

/-- Behind skipped blanks comes no blank. -/
theorem Cursor.isBlank_head_skipBlanks (cur : Cursor) : ∀ c ∈ cur.skipBlanks.rest.head?, isBlank c = false := by
  intro c hc
  have hnot := List.head?_dropWhile_not isBlank cur.rest
  rw [skipBlanks, advance, Statement.drop_length_takeWhile] at hc
  simpa [Option.mem_def.1 hc] using hnot

namespace Statement

variable {cur start : Cursor} {text : List Char} {e : StatementError}

/-- The bracket that is unknown or not closed comes next. -/
theorem quotes_of_readShape (h : readShape cur = .error e) : e.column = cur.column ∧ e.fault.Quotes cur.rest := by
  unfold readShape at h
  split at h
  · rename_i opener hopener
    cases h
    exact ⟨rfl, prefix_of_startsWith (List.find?_some hopener)⟩
  · split at h
    · cases h
    · rename_i shape hshape
      split at h
      · cases h
        exact ⟨rfl, prefix_of_startsWith
          (List.find?_some (p := fun s : Shape => startsWith cur.rest s.opener) hshape)⟩
      · cases h

/-- Where no id comes, the next character is none of an id and, blanks being skipped, no blank either. -/
theorem exists_place_of_readRef (h : readRef start = .error e) (hstart : start.IsIn text) :
    ∃ cur : Cursor, cur.IsIn text ∧ e.column = cur.column ∧ e.fault.Quotes cur.rest := by
  unfold readRef at h
  simp only at h
  split at h
  · rename_i hid
    cases h
    refine ⟨start.skipBlanks, hstart.skipBlanks, rfl, fun c hc => ⟨?_, start.isBlank_head_skipBlanks c hc⟩⟩
    rw [Cursor.identifier, List.isEmpty_iff, List.takeWhile_eq_nil_iff] at hid
    obtain ⟨rest, hrest⟩ := List.head?_eq_some_iff.1 (Option.mem_def.1 hc)
    simpa [hrest] using hid
  · obtain ⟨hcolumn, hquotes⟩ := quotes_of_readShape (error_of_map_eq_error h)
    exact ⟨_, isIn_behind_identifier hstart, hcolumn, hquotes⟩

/-- What continues no statement is all that comes, or what comes of a label that is not closed. -/
theorem quotes_of_readLink (h : readLink cur = .error e) :
    e.column = cur.column ∧ (e.fault.Quotes cur.rest ∨ e.fault.QuotesOpenLabel cur.rest) := by
  unfold readLink at h
  split at h
  · cases h
    exact ⟨rfl, Or.inl String.toList_ofList⟩
  · rename_i arrow text? behind harrow
    split at h
    · rename_i passed rest hpipe
      simp only at h
      split at h
      · cases h
      · rename_i hopen
        cases h
        obtain ⟨pieces, hpieces, hpassed⟩ := exists_spelled_of_readArrow? harrow
        obtain ⟨blanks, hblanks, hskipped⟩ := behind.exists_passes_skipBlanks
        rw [hpipe] at hskipped
        have hlabel : '|' ∉ rest := by
          have hall : rest.takeWhile (· != '|') = rest :=
            (List.takeWhile_prefix _).eq_of_length_le (Nat.le_of_not_lt hopen)
          rw [← hall]
          exact fun hmem => by simpa using List.mem_takeWhile_imp hmem
        exact ⟨rfl, Or.inr ⟨rest, rfl, arrow, text?, pieces, blanks, hpieces, hblanks, hlabel,
          by rw [hpassed.1, hskipped.1]⟩⟩
    · cases h

/-- An error is about what comes at a place in the text. -/
theorem exists_place_of_readFrom (h : readFrom start = .error e) (hstart : start.IsIn text) :
    ∃ cur : Cursor, cur.IsIn text ∧ e.column = cur.column ∧
      (e.fault.Quotes cur.rest ∨ e.fault.QuotesOpenLabel cur.rest) := by
  fun_induction readFrom start generalizing e with
  | case1 start e' href =>
    cases h
    obtain ⟨cur, hcur, hcolumn, hquotes⟩ := exists_place_of_readRef href hstart
    exact ⟨cur, hcur, hcolumn, Or.inl hquotes⟩
  | case2 start ref cur href hnext => cases h
  | case3 start ref cur href rest hnext ih =>
    have hcur := (standsAt_of_readRef href hstart).2
    exact ih (error_of_map_eq_error h) (hcur.skipBlanks.advance (by simp [hnext]))
  | case4 start ref cur href e' hlink =>
    cases h
    obtain ⟨hcolumn, hquotes⟩ := quotes_of_readLink hlink
    exact ⟨_, (standsAt_of_readRef href hstart).2.skipBlanks, hcolumn, hquotes⟩
  | case5 start ref cur href link next hlink hnil hamp ih =>
    have hcur := (standsAt_of_readRef href hstart).2
    exact ih (error_of_map_eq_error h) (isIn_of_readLink hlink hcur.skipBlanks)

/-- Whatever text is no statement, the column of the error is one of the text, and what the error quotes is what stands there,
unless it quotes a label that an arrow at that column opens and nothing closes. -/
theorem error_in_place (h : parse text = .error e) :
    (1 ≤ e.column ∧ e.column ≤ text.length + 1) ∧
      (¬ e.fault.Quotes (text.drop (e.column - 1)) ↔ e.fault.QuotesOpenLabel (text.drop (e.column - 1))) := by
  obtain ⟨cur, ⟨before, hsplit, hpassed⟩, hcolumn, hquotes⟩ := exists_place_of_readFrom h (Cursor.isIn_start text)
  have hrest : text.drop (e.column - 1) = cur.rest := by
    rw [hcolumn, Cursor.column, Nat.add_sub_cancel, hpassed, hsplit, List.drop_left]
  have hlength : cur.passed ≤ text.length := by
    rw [hsplit, hpassed, List.length_append]
    omega
  rw [hrest]
  refine ⟨?_, fun hnot => hquotes.resolve_left hnot, StatementFault.not_quotes_of_quotesOpenLabel⟩
  rw [hcolumn, Cursor.column]
  omega

/-- A dash that begins no arrow, behind a label with a character of two bytes and a pipe. -/
theorem error_in_place_dash :
    let text := "a[\"ü|\"] & b -. é".toList
    parse text = .error ⟨13, .unexpected "-. é"⟩ ∧ (StatementFault.unexpected "-. é").Quotes (text.drop 12) := by
  intro text
  have hparse : parse text = .error ⟨13, .unexpected "-. é"⟩ := by decide +kernel
  refine ⟨hparse, ?_⟩
  by_contra hnot
  obtain ⟨label, -, arrow, text?, pieces, blanks, -, -, -, hrest⟩ := (error_in_place hparse).2.1 hnot
  have hpipe : '|' ∈ Piece.text pieces ++ (blanks ++ '|' :: label) := by simp
  rw [← hrest] at hpipe
  exact absurd hpipe (by decide)

/-- A label that is not closed is quoted at the column of the arrow before it. -/
theorem error_misplaced :
    parse "a -->|x".toList = .error ⟨3, .unexpected "x"⟩ ∧
      ¬ (StatementFault.unexpected "x").Quotes ("a -->|x".toList.drop 2) := by
  refine ⟨by decide +kernel, ?_⟩
  intro hquotes
  exact absurd hquotes (by decide : "x".toList ≠ "-->|x".toList)

end Statement

end Whiteboard
