import Whiteboard.Proofs.Diagram.WellFormed
import Whiteboard.Proofs.Text.Keyword

/-!
# Where ids stand

Main statement: the id of every node of a document stands in a line of the text, as a word of its own
(`Document.standsIn_of_mem_nodeIds`).

The reader of statements goes on behind an arrow, a label or an `&`, none of which ends with a word character, and stops
reading an id at a blank, a bracket or the start of an arrow. So whatever the grammar takes for an id is set off on both
sides.
-/

namespace Whiteboard

open Text

namespace Statement

/-! ## Arrows -/

/-- A text that ends with a character that is no word character. -/
def ClosesOff (s : List Char) : Prop := ∃ front c, s = front ++ [c] ∧ isWordChar c = false

/-- Whatever stands before such a text, a word may begin behind it. -/
theorem ClosesOff.endsOpen {t : List Char} (h : ClosesOff t) (s : List Char) : EndsOpen (s ++ t) := by
  obtain ⟨front, c, rfl, hc⟩ := h
  rw [← List.append_assoc]
  exact endsOpen_concat _ hc

theorem ClosesOff.append_left {t : List Char} (h : ClosesOff t) (s : List Char) : ClosesOff (s ++ t) := by
  obtain ⟨front, c, rfl, hc⟩ := h
  exact ⟨s ++ front, c, (List.append_assoc _ _ _).symm, hc⟩

/-- What is taken up to the end of a token: what is taken before it, and the token. -/
theorem take_add_token {rest : List Char} {token : String} {k n : Nat} (h : startsWith (rest.drop k) token = true)
    (hn : n = k + token.toList.length) : rest.take n = rest.take k ++ token.toList := by
  obtain ⟨tail, htail⟩ := List.isPrefixOf_iff_prefix.1 h
  rw [hn, List.take_add, ← htail, List.take_left]

/-- What is taken up to the end of a token ends as the token does. -/
theorem closesOff_take {rest : List Char} {token : String} {k n : Nat} (h : startsWith (rest.drop k) token = true)
    (hn : n = k + token.toList.length) (htoken : ClosesOff token.toList) : ClosesOff (rest.take n) := by
  rw [take_add_token h hn]
  exact htoken.append_left _

/-- A run is its character as often as it says. -/
theorem take_run (c : Char) (s : List Char) : s.take (run c s) = List.replicate (run c s) c := by
  rw [run, ← List.prefix_iff_eq_take.1 (List.takeWhile_prefix _), List.eq_replicate_iff]
  exact ⟨rfl, fun d hd => by simpa using List.mem_takeWhile_imp hd⟩

/-- A run that is not empty begins with its character. -/
theorem startsOpen_of_run {c : Char} {s : List Char} (h : 1 ≤ run c s) (hc : isWordChar c = false) : StartsOpen s := by
  cases s with
  | nil => simp [run] at h
  | cons d ds =>
    by_cases hd : d = c
    · subst hd
      intro e he
      cases he
      exact hc
    · simp [run, hd] at h

/-- A run that is not empty ends with its character. -/
theorem closesOff_take_run {c : Char} {s : List Char} (h : 1 ≤ run c s) (hc : isWordChar c = false) :
    ClosesOff (s.take (run c s)) := by
  obtain ⟨n, hn⟩ := Nat.exists_eq_add_of_le' h
  rw [take_run, hn, List.replicate_succ']
  exact ⟨_, c, rfl, hc⟩

/-- A plain arrow begins with a dash or an equals sign and ends with a dash or an angle. -/
theorem readPlainArrow?_open {rest : List Char} {n : Nat} (h : readPlainArrow? rest = some n) :
    StartsOpen rest ∧ ClosesOff (rest.take n) := by
  have hdash : isWordChar '-' = false := by decide
  have hequals : isWordChar '=' = false := by decide
  have hangle : isWordChar '>' = false := by decide
  unfold readPlainArrow? at h
  simp only [Bool.and_eq_true, decide_eq_true_eq] at h
  split at h
  · rename_i hcond
    cases h
    exact ⟨startsOpen_of_run (by omega) hdash, closesOff_take hcond.2 (by simp; omega) ⟨['-'], '>', rfl, hangle⟩⟩
  · split at h
    · rename_i hcond
      cases h
      exact ⟨startsOpen_of_run (by omega) hdash, closesOff_take hcond.2 (by simp) ⟨[], '>', rfl, hangle⟩⟩
    · split at h
      · rename_i hcond
        cases h
        exact ⟨startsOpen_of_run (by omega) hequals, closesOff_take hcond.2 (by simp) ⟨[], '>', rfl, hangle⟩⟩
      · split at h
        · rename_i hcond
          cases h
          exact ⟨startsOpen_of_run (by omega) hdash, closesOff_take_run (by omega) hdash⟩
        · split at h
          · rename_i hcond
            cases h
            exact ⟨startsOpen_of_run (by omega) hdash, closesOff_take hcond.2 (by simp; omega) ⟨[], '-', rfl, hdash⟩⟩
          · cases h

/-- An arrow around its text begins with dashes and ends with an angle. -/
theorem readInlineArrow?_open {rest : List Char} {label : String} {n : Nat}
    (h : readInlineArrow? rest = some (label, n)) : StartsOpen rest ∧ ClosesOff (rest.take n) := by
  unfold readInlineArrow? at h
  simp only [Bool.and_eq_true, decide_eq_true_eq] at h
  split at h
  · rename_i hcond
    cases h
    obtain ⟨⟨⟨⟨hfirst, hlast⟩, -⟩, -⟩, -⟩ := hcond
    refine ⟨?_, closesOff_take hlast (by simp; omega) ⟨['-', '-'], '>', rfl, by decide⟩⟩
    obtain ⟨tail, rfl⟩ := List.isPrefixOf_iff_prefix.1 hfirst
    rintro c ⟨⟩
    decide
  · cases h

/-- An arrow is set off on both sides. -/
theorem readArrow?_open {cur next : Cursor} {arrow : Arrow} {text? : Option String}
    (h : readArrow? cur = some (arrow, text?, next)) :
    StartsOpen cur.rest ∧ ∃ token, cur.rest = token ++ next.rest ∧ ClosesOff token := by
  unfold readArrow? at h
  split at h
  · rename_i hinline
    cases h
    obtain ⟨hstart, hend⟩ := readInlineArrow?_open hinline
    exact ⟨hstart, _, (List.take_append_drop _ _).symm, hend⟩
  · obtain ⟨n, hplain, heq⟩ := Option.map_eq_some_iff.1 h
    cases heq
    obtain ⟨hstart, hend⟩ := readPlainArrow?_open hplain
    exact ⟨hstart, _, (List.take_append_drop _ _).symm, hend⟩

/-- The blanks that are skipped, and what is left. -/
theorem rest_eq_skipBlanks (cur : Cursor) :
    ∃ blanks, cur.rest = blanks ++ cur.skipBlanks.rest ∧ ∀ c ∈ blanks, isBlank c = true := by
  refine ⟨cur.rest.takeWhile isBlank, ?_, fun c hc => List.mem_takeWhile_imp hc⟩
  rw [Cursor.skipBlanks, Cursor.advance]
  conv_lhs => rw [← List.take_append_drop (cur.rest.takeWhile isBlank).length cur.rest]
  rw [← List.prefix_iff_eq_take.1 (List.takeWhile_prefix _)]

/-- A place is open before blanks if it is open behind them. -/
theorem startsOpen_of_skipBlanks {cur : Cursor} (h : StartsOpen cur.skipBlanks.rest) : StartsOpen cur.rest := by
  obtain ⟨blanks, hrest, hblanks⟩ := rest_eq_skipBlanks cur
  rw [hrest]
  exact (startsOpen_of_blanks hblanks).append h

/-- Behind a run stands what is left when the run is dropped. -/
theorem drop_length_takeWhile (p : Char → Bool) (s : List Char) : s.drop (s.takeWhile p).length = s.dropWhile p := by
  have hsplit := congrArg (List.drop (s.takeWhile p).length) (List.takeWhile_append_dropWhile (p := p) (l := s))
  rw [← hsplit, List.drop_left]

/-- A run that is not the whole text is followed by a character that ends it. -/
theorem exists_of_length_takeWhile_lt {p : Char → Bool} {s : List Char} (h : (s.takeWhile p).length < s.length) :
    ∃ c, p c = false ∧ s = s.takeWhile p ++ c :: s.drop ((s.takeWhile p).length + 1) := by
  have hsplit := List.takeWhile_append_dropWhile (p := p) (l := s)
  cases hrest : s.dropWhile p with
  | nil =>
    rw [hrest, List.append_nil] at hsplit
    rw [hsplit] at h
    exact absurd h (Nat.lt_irrefl _)
  | cons c cs =>
    refine ⟨c, ?_, ?_⟩
    · have hnot := List.head?_dropWhile_not p s
      rw [hrest] at hnot
      simpa using hnot
    · rw [← List.drop_drop, drop_length_takeWhile, hrest, List.drop_one, List.tail_cons, ← hrest, hsplit]

/-- A link, with its label or without, is set off on both sides. -/
theorem readLink_open {cur next : Cursor} {link : Link} (h : readLink cur = .ok (link, next)) :
    StartsOpen cur.rest ∧ ∃ token, cur.rest = token ++ next.rest ∧ ClosesOff token := by
  unfold readLink at h
  split at h
  · cases h
  · rename_i arrow text? behind harrow
    obtain ⟨hstart, token, htoken, hopen⟩ := readArrow?_open harrow
    split at h
    · rename_i passed rest hpipe
      obtain ⟨blanks, hblanks, -⟩ := rest_eq_skipBlanks behind
      rw [hpipe] at hblanks
      simp only at h
      split at h
      · rename_i hclosed
        cases h
        obtain ⟨c, hc, hrest⟩ := exists_of_length_takeWhile_lt hclosed
        have hc : c = '|' := by simpa using hc
        subst hc
        refine ⟨hstart, token ++ blanks ++ '|' :: rest.takeWhile (· != '|') ++ ['|'], ?_, _, _, rfl, by decide⟩
        rw [htoken, hblanks]
        conv_lhs => rw [hrest]
        simp
      · cases h
    · cases h
      exact ⟨hstart, token, htoken, hopen⟩

/-! ## References -/

/-- Where a reference stands, given what comes behind it. -/
theorem readRef_standsIn {start next : Cursor} {ref : NodeRef} (h : readRef start = .ok (ref, next))
    (hnext : StartsOpen next.rest) {front : List Char} (hfront : EndsOpen front) :
    StandsIn ref.id.toList (front ++ start.rest) := by
  obtain ⟨blanks, hblanks, hall⟩ := rest_eq_skipBlanks start
  unfold readRef at h
  simp only at h
  split at h
  · cases h
  · obtain ⟨⟨span?, next'⟩, hshape, heq⟩ := exists_of_map_eq_ok h
    cases heq
    have hsplit : start.skipBlanks.rest = start.skipBlanks.identifier ++
        (start.skipBlanks.advance start.skipBlanks.identifier.length).rest := by
      rw [Cursor.advance, Cursor.identifier]
      conv_lhs => rw [← List.take_append_drop (start.skipBlanks.rest.takeWhile isIdChar).length start.skipBlanks.rest]
      rw [← List.prefix_iff_eq_take.1 (List.takeWhile_prefix _)]
    refine ⟨front ++ blanks, (start.skipBlanks.advance start.skipBlanks.identifier.length).rest, ?_,
      hfront.append (endsOpen_of_blanks hall), startsOpen_of_readShape hshape hnext⟩
    rw [String.toList_ofList, ← hsplit, List.append_assoc, ← hblanks]
where
  /-- What follows an id is a bracket, or what follows the reference. -/
  startsOpen_of_readShape {cur next : Cursor} {span? : Option ShapeSpan} (h : readShape cur = .ok (span?, next))
      (hnext : StartsOpen next.rest) : StartsOpen cur.rest := by
    unfold readShape at h
    split at h
    · cases h
    · split at h
      · cases h
        exact hnext
      · rename_i shape hshape
        have hprefix := List.find?_some hshape
        simp only [startsWith] at hprefix
        obtain ⟨tail, htail⟩ := List.isPrefixOf_iff_prefix.1 hprefix
        rw [← htail]
        cases shape <;> (rintro c ⟨⟩; decide)

/-- Every reference of a statement stands in the text that it is read from, if the text before that is open. -/
theorem standsIn_of_readFrom {start : Cursor} {s : Statement} (h : readFrom start = .ok s) {front : List Char}
    (hfront : EndsOpen front) : ∀ ref ∈ s.refs, StandsIn ref.id.toList (front ++ start.rest) := by
  fun_induction readFrom start generalizing s front with
  | case1 start e href => cases h
  | case2 start ref cur href hnext =>
    cases h
    have hopen : StartsOpen cur.rest := startsOpen_of_skipBlanks (by rw [hnext]; rintro c ⟨⟩)
    exact List.forall_mem_cons.2 ⟨readRef_standsIn href hopen hfront, by simp⟩
  | case3 start ref cur href rest hnext ih =>
    obtain ⟨s', hs, rfl⟩ := exists_of_map_eq_ok h
    have hopen : StartsOpen cur.rest :=
      startsOpen_of_skipBlanks (by rw [hnext]; rintro c ⟨⟩; decide)
    obtain ⟨passed, hpassed⟩ := (readRef_spec (p := fun _ => True) href (by simp)).2
    obtain ⟨blanks, hblanks, -⟩ := rest_eq_skipBlanks cur
    have hrest : front ++ start.rest = (front ++ passed ++ blanks ++ ['&']) ++ (cur.skipBlanks.advance 1).rest := by
      rw [← hpassed, hblanks, Cursor.advance, hnext]
      simp
    rw [refs_addRef]
    refine List.forall_mem_cons.2 ⟨readRef_standsIn href hopen hfront, ?_⟩
    rw [hrest]
    exact ih hs (endsOpen_concat _ (by decide))
  | case4 start ref cur href e hlink => cases h
  | case5 start ref cur href link next hlink hnil hamp ih =>
    obtain ⟨s', hs, rfl⟩ := exists_of_map_eq_ok h
    obtain ⟨hopen, token, htoken, hend⟩ := readLink_open hlink
    obtain ⟨passed, hpassed⟩ := (readRef_spec (p := fun _ => True) href (by simp)).2
    obtain ⟨blanks, hblanks, -⟩ := rest_eq_skipBlanks cur
    have hrest : front ++ start.rest = (front ++ passed ++ blanks ++ token) ++ next.rest := by
      rw [← hpassed, hblanks, htoken]
      simp
    rw [refs_addLink]
    refine List.forall_mem_cons.2 ⟨readRef_standsIn href (startsOpen_of_skipBlanks hopen) hfront, ?_⟩
    rw [hrest]
    exact ih hs (hend.endsOpen _)

end Statement

/-! ## Lines -/

/-- What stands in a line without the blanks around it stands in the line. -/
theorem Text.StandsIn.of_trim {word s : List Char} (h : StandsIn word (trim s)) : StandsIn word s := by
  obtain ⟨back, hsplit, hall⟩ := exists_trim_append s
  rw [hsplit]
  exact h.append (endsOpen_of_blanks fun c hc => List.mem_takeWhile_imp hc) (startsOpen_of_blanks hall)

/-- A statement is its line without the blanks around it and the semicolons behind it. -/
theorem Line.text_of_classify {raw text : List Char} (h : classify raw = .statement text) :
    text = dropEndWhile (· == ';') (trim raw) := by
  unfold classify at h
  simp only at h
  split at h
  · cases h
  · split at h
    · cases h
    · split at h
      · cases h
      · unfold ofFirstWord at h
        repeat' split at h
        all_goals cases h
        rfl

/-- What stands in a statement stands in its line. -/
theorem Line.standsIn_of_classify {raw text word : List Char} (h : classify raw = .statement text)
    (hword : StandsIn word text) : StandsIn word raw := by
  obtain rfl := text_of_classify h
  obtain ⟨back, hback, hall⟩ := exists_dropEndWhile_append (· == ';') (trim raw)
  have hopen : StartsOpen back := by
    intro c hc
    rw [beq_iff_eq.1 (hall c (List.mem_of_head? hc))]
    decide
  have htrim := hword.append endsOpen_nil hopen
  rw [List.nil_append, ← hback] at htrim
  exact htrim.of_trim

/-! ## Documents -/

namespace Document

/-- More references add their ids, those that are not there yet. -/
theorem mem_ids_foldl_noteRef (group? : Option String) (line : Nat) (refs : List NodeRef) (nodes : List Node)
    (id : String) :
    id ∈ (refs.foldl (noteRef group? line) nodes).map (·.id) ↔ id ∈ nodes.map (·.id) ∨ ∃ ref ∈ refs, ref.id = id := by
  induction refs generalizing nodes with
  | nil => simp
  | cons ref refs ih =>
    rw [List.foldl_cons, ih, mem_ids_noteRef, or_assoc, eq_comm (a := id)]
    simp only [List.mem_cons, exists_eq_or_imp]

/-- One more line brings in only ids that stand in it. -/
theorem mem_nodeIds_step {r : Reading} {line : NumberedLine} {id : String} (h : id ∈ (r.step line).document.nodeIds) :
    id ∈ r.document.nodeIds ∨ StandsIn id.toList line.text := by
  unfold Reading.step at h
  split at h
  case h_4 text hclass =>
    split at h
    · exact Or.inl h
    · rename_i statement hparse
      rcases (mem_ids_foldl_noteRef _ _ _ _ _).1 h with h | ⟨ref, href, rfl⟩
      · exact Or.inl h
      · have hstands := Statement.standsIn_of_readFrom hparse endsOpen_nil ref href
        exact Or.inr (Line.standsIn_of_classify hclass hstands)
  case h_1 =>
    split at h
    · exact Or.inl h
    · exact Or.inl h
  all_goals exact Or.inl h

/-- The id of every node stands in a line of the text. -/
theorem standsIn_of_mem_nodeIds {text id : String} (h : id ∈ (parse text).nodeIds) :
    ∃ line ∈ lines text.toList, StandsIn id.toList line := by
  have hfold : ∀ (ls : List NumberedLine) (r : Reading), id ∈ (ls.foldl Reading.step r).document.nodeIds →
      id ∈ r.document.nodeIds ∨ ∃ line ∈ ls, StandsIn id.toList line.text := by
    intro ls
    induction ls with
    | nil => exact fun r hr => Or.inl hr
    | cons l ls ih =>
      intro r hr
      rcases ih _ hr with hstep | ⟨line, hline, hstands⟩
      · rcases mem_nodeIds_step hstep with hold | hstands
        · exact Or.inl hold
        · exact Or.inr ⟨l, by simp, hstands⟩
      · exact Or.inr ⟨line, by simp [hline], hstands⟩
  rcases hfold _ _ h with hnone | ⟨line, hline, hstands⟩
  · cases hnone
  · exact ⟨line.text, mem_lines_of_body hline, hstands⟩

end Document

end Whiteboard
