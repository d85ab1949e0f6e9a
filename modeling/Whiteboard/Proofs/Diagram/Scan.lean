import Whiteboard.Diagram.Scan
import Whiteboard.Proofs.Diagram.Spelling

/-!
# Scans and readings

A scan goes by bytes and fills its lists from the front, while a reading goes by characters and puts a statement together from
its end. Main statement (`Scan.scan_eq`): they come to the same, and a scan fails only where a text is no statement. Every cut
that a scan makes is made at a place where the reader stops too, so there is always something to cut.
-/

namespace Whiteboard

open Text

/-- The number of bytes before a column of a text. -/
def Text.offset (text : List Char) (column : Nat) : Nat := size (text.take (column - 1))

namespace Cursor

/-- The number of bytes before a place. -/
def place (text : List Char) (cur : Cursor) : Nat := offset text cur.column

variable {text between : List Char} {cur next : Cursor}

/-- In a text, a place has as many bytes before it as the characters that stand there. -/
theorem place_of_append {before : List Char} (htext : text = before ++ cur.rest) (hpassed : cur.passed = before.length) :
    cur.place text = size before := by
  rw [place, offset, column, Nat.add_sub_cancel, htext, hpassed, List.take_left]

/-- What is passed between two places takes up the bytes between them. -/
theorem IsIn.place_of_passes (h : cur.IsIn text) (hbetween : cur.Passes between next) :
    next.place text = cur.place text + size between := by
  obtain ⟨before, htext, hpassed⟩ := h
  rw [place_of_append htext hpassed, ← size_append]
  refine place_of_append ?_ ?_
  · rw [htext, hbetween.1, List.append_assoc]
  · rw [hbetween.2, hpassed, List.length_append]

/-- A place some characters on has the bytes of these before it. -/
theorem IsIn.place_advance (h : cur.IsIn text) {n : Nat} (hn : n ≤ cur.rest.length) :
    (cur.advance n).place text = cur.place text + size (cur.rest.take n) :=
  h.place_of_passes (cur.passes_take hn)

/-- What has been passed and what is left make up the text. -/
theorem IsIn.place_add_size (h : cur.IsIn text) : cur.place text + size cur.rest = size text := by
  obtain ⟨before, htext, hpassed⟩ := h
  rw [place_of_append htext hpassed, htext, size_append]

end Cursor

namespace Scan

variable {text : List Char} {cur : Cursor}

/-! ## Cuts -/

/-- What is cut behind a part of a text is that part and the rest. -/
theorem cut_append (before behind : List Char) : cut (before ++ behind) (size before) = .ok (before, behind) := by
  rw [cut, cut?_append]

/-- A text can be cut before and behind a character of one byte. -/
theorem cut_around {c : Char} (hc : c.utf8Size = 1) (before behind : List Char) :
    cut (before ++ c :: behind) (size before) = .ok (before, c :: behind) ∧
    cut (before ++ c :: behind) (size before + 1) = .ok (before ++ [c], behind) := by
  have hbehind := cut_append (before ++ [c]) behind
  rw [List.append_assoc, size_append, size_cons, size_nil, hc] at hbehind
  exact ⟨cut_append _ _, hbehind⟩

/-- A text can be cut behind a run of characters. -/
theorem cut_takeWhile (p : Char → Bool) (s : List Char) :
    cut s (size (s.takeWhile p)) = .ok (s.takeWhile p, s.dropWhile p) := by
  rw [← cut_append, List.takeWhile_append_dropWhile]

/-- At a place of the text there is something to cut: what is left there, and what stands before it. -/
theorem cut_place (h : cur.IsIn text) : ∃ before, before.length = cur.passed ∧ cut text (cur.place text) = .ok (before, cur.rest) := by
  obtain ⟨before, htext, hpassed⟩ := h
  refine ⟨before, hpassed.symm, ?_⟩
  rw [Cursor.place_of_append htext hpassed]
  conv_lhs => rw [htext]
  exact cut_append before cur.rest

/-- What the scan looks at is what the reader has left. -/
theorem rest_place (h : cur.IsIn text) : rest text (cur.place text) = .ok cur.rest := by
  obtain ⟨before, -, hcut⟩ := cut_place h
  rw [rest, hcut]
  rfl

/-- The scan counts the columns that the reader counts. -/
theorem column_place (h : cur.IsIn text) : column text (cur.place text) = .ok cur.column := by
  obtain ⟨before, hlength, hcut⟩ := cut_place h
  rw [column, hcut, Cursor.column, ← hlength]
  rfl

/-- The scan skips the blanks that the reader skips. -/
theorem skipBlanks_place (h : cur.IsIn text) : skipBlanks text (cur.place text) = .ok (cur.skipBlanks.place text) := by
  have hskipped : trimStart cur.rest = cur.skipBlanks.rest := by
    rw [trimStart, Cursor.skipBlanks, Cursor.advance, Statement.drop_length_takeWhile]
  have hsize := h.skipBlanks.place_add_size
  rw [skipBlanks, rest_place h]
  change Except.ok (size text - size (trimStart cur.rest)) = _
  rw [hskipped]
  congr 1
  omega

/-! ## Ids and labels -/

/-- A text has a character with a property if the run of those without it is not the whole. -/
theorem placeOf?_eq (p : Char → Bool) (s : List Char) :
    placeOf? p s = if (s.takeWhile fun c => !p c).length < s.length then some (size (s.takeWhile fun c => !p c))
      else none := by
  have hiff : s.any p = true ↔ (s.takeWhile fun c => !p c).length < s.length := by
    constructor
    · intro hany
      by_contra hnot
      have hall : (s.takeWhile fun c => !p c) = s := (List.takeWhile_prefix _).eq_of_length_le (Nat.le_of_not_lt hnot)
      obtain ⟨c, hc, hp⟩ := List.any_eq_true.1 hany
      rw [← hall] at hc
      simpa [hp] using List.mem_takeWhile_imp hc
    · intro hlt
      obtain ⟨c, hc, hs⟩ := Statement.exists_of_length_takeWhile_lt hlt
      rw [hs, List.any_append, List.any_cons]
      simp only [Bool.not_eq_false'] at hc
      simp [hc]
  simp only [placeOf?, hiff]

/-- A character is found behind the run of the others. -/
theorem placeOf?_char (c : Char) (s : List Char) : placeOf? (· == c) s =
    if (s.takeWhile (· != c)).length < s.length then some (size (s.takeWhile (· != c))) else none :=
  placeOf?_eq (· == c) s

/-- The id that the scan finds is the one that the reader finds. -/
theorem identifier?_place (h : cur.IsIn text) :
    identifier? text (cur.place text) = .ok (if cur.identifier.isEmpty then none
      else some (String.ofList cur.identifier, cur.place text + size cur.identifier)) := by
  have hlength : (placeOf? (fun c => !isIdChar c) cur.rest).getD (size cur.rest) = size cur.identifier := by
    simp only [placeOf?_eq, Bool.not_not]
    split
    · rfl
    · rename_i hall
      rw [Cursor.identifier, (List.takeWhile_prefix _).eq_of_length_le (Nat.le_of_not_lt hall)]
      rfl
  have hcut : cut cur.rest (size cur.identifier) = .ok (cur.identifier, cur.rest.dropWhile isIdChar) := cut_takeWhile _ _
  rw [identifier?, rest_place h]
  change (if (placeOf? _ cur.rest).getD (size cur.rest) = 0 then _ else _) = _
  rw [hlength]
  by_cases hid : cur.identifier = []
  · rw [hid]
    rfl
  · rw [if_neg (by rwa [size_eq_zero_iff]), hcut, if_neg (by simpa using hid)]
    rfl

/-- A label with its quotes and its bracket has as many characters as it has without, two for the quotes, and the bracket. -/
theorem take_quoted (label closer after : List Char) :
    ('"' :: (label ++ '"' :: (closer ++ after))).take (label.length + 2 + closer.length) =
      '"' :: (label ++ '"' :: closer) := by
  have hlength : label.length + 2 + closer.length = ('"' :: (label ++ '"' :: closer)).length := by
    simp only [List.length_cons, List.length_append]
    omega
  have htext : '"' :: (label ++ '"' :: (closer ++ after)) = '"' :: (label ++ '"' :: closer) ++ after := by simp
  rw [hlength, htext, List.take_left]

/-- A label with its quotes and its bracket takes up as many bytes as it does without, two for the quotes, and the bracket. -/
theorem size_quoted (label closer : List Char) :
    size ('"' :: (label ++ '"' :: closer)) = size label + 2 + size closer := by
  have hquote : '"'.utf8Size = 1 := rfl
  simp only [size_cons, size_append, hquote]
  omega

/-- A label between quotes is found where the reader finds it. -/
theorem label?_quoted (closer : String) (quoted : List Char) :
    label? closer ('"' :: quoted) = .ok ((Statement.readLabel? closer.toList ('"' :: quoted)).map
      fun (label, isQuoted, length) => (String.ofList label, isQuoted, size (('"' :: quoted).take length))) := by
  have hplace := placeOf?_char '"' quoted
  by_cases hlt : (quoted.takeWhile (· != '"')).length < quoted.length
  · obtain ⟨c, hc, hquoted⟩ := Statement.exists_of_length_takeWhile_lt hlt
    obtain rfl : c = '"' := by simpa using hc
    rw [if_pos hlt] at hplace
    simp only [label?, hplace, Statement.readLabel?]
    generalize quoted.takeWhile (· != '"') = label at *
    generalize quoted.drop (label.length + 1) = behind at *
    subst hquoted
    obtain ⟨hlabel, hbehind⟩ := cut_around (c := '"') rfl label behind
    rw [List.drop_left, hbehind, hlabel]
    change (if closer.toList.isPrefixOf behind then Except.ok _ else Except.ok none) =
      Except.ok (Option.map _ (if closer.toList.isPrefixOf behind then _ else _))
    split
    · rename_i hclosed
      obtain ⟨after, rfl⟩ := List.isPrefixOf_iff_prefix.1 hclosed
      rw [Option.map_some, take_quoted, size_quoted]
    · rfl
  · rw [if_neg hlt] at hplace
    have hall : quoted.takeWhile (· != '"') = quoted :=
      (List.takeWhile_prefix _).eq_of_length_le (Nat.le_of_not_lt hlt)
    simp only [label?, hplace, Statement.readLabel?, hall, List.drop_length]
    rfl

/-- A label without quotes is found where the reader finds it. -/
theorem label?_bare (closer : String) {body : List Char} (hbare : ∀ quoted, body ≠ '"' :: quoted) :
    label? closer body = .ok ((Statement.readLabel? closer.toList body).map fun (label, isQuoted, length) =>
      (String.ofList label, isQuoted, size (body.take length))) := by
  unfold label? Statement.readLabel?
  split
  · exact absurd rfl (hbare _)
  · simp only
    cases hbreak : breakOn? closer.toList body with
    | none =>
      simp only [placeOfText?, hbreak]
      rfl
    | some parts =>
      obtain ⟨label, after⟩ := parts
      obtain rfl := append_of_breakOn? hbreak
      simp only [placeOfText?, hbreak, Option.map_some, cut_append]
      rw [← List.append_assoc, ← List.length_append, List.take_left, size_append]
      rfl

/-- A label is found where the reader finds it. -/
theorem label?_eq (closer : String) (body : List Char) :
    label? closer body = .ok ((Statement.readLabel? closer.toList body).map fun (label, isQuoted, length) =>
      (String.ofList label, isQuoted, size (body.take length))) := by
  by_cases hquote : body.head? = some '"'
  · obtain ⟨quoted, rfl⟩ := List.head?_eq_some_iff.1 hquote
    exact label?_quoted closer quoted
  · exact label?_bare closer fun quoted hbody => hquote (by rw [hbody]; rfl)

/-! ## References -/

/-- What the reader finds, with the place where it stops given in bytes. -/
def placed (text : List Char) (r : Except StatementError (α × Cursor)) : Except Failure (α × Nat) :=
  (r.map fun (a, cur) => (a, cur.place text)).mapError .fault

/-- The shape that the scan finds is the one that the reader finds. -/
theorem shape_place (h : cur.IsIn text) : shape text (cur.place text) = placed text (Statement.readShape cur) := by
  rw [shape, column_place h, rest_place h, Statement.readShape]
  simp only [bind, Except.bind]
  cases hunknown : Statement.unknownBrackets.find? (Statement.startsWith cur.rest) with
  | some opener => rfl
  | none =>
    cases hshape : Statement.bracketedShapes.find? fun shape => Statement.startsWith cur.rest shape.opener with
    | none => rfl
    | some shape =>
      have hstarts : Statement.startsWith cur.rest shape.opener = true :=
        List.find?_some (p := fun s : Shape => Statement.startsWith cur.rest s.opener) hshape
      have hopener := Statement.prefix_of_startsWith hstarts
      have hlength : shape.opener.length ≤ cur.rest.length := by
        rw [← String.length_toList]
        exact hopener.length_le
      have hinside : cur.place text + size shape.opener.toList = (cur.advance shape.opener.length).place text := by
        rw [h.place_advance hlength, ← String.length_toList, ← List.prefix_iff_eq_take.1 hopener]
      simp only [hinside, rest_place (h.advance hlength), label?_eq]
      simp only [Cursor.advance]
      cases hlabel : Statement.readLabel? shape.closer.toList (cur.rest.drop shape.opener.length) with
      | none => rfl
      | some found =>
        obtain ⟨label, quoted, length⟩ := found
        have hnext := (h.advance hlength).place_advance (Statement.length_of_readLabel? hlabel)
        simp only [Cursor.advance, List.drop_drop, Nat.add_assoc] at hnext
        simp only [Option.map_some, placed, Except.map, Except.mapError, ← hnext]
        rfl

/-- The reference that the scan finds is the one that the reader finds. -/
theorem reference_place (h : cur.IsIn text) :
    reference text (cur.place text) = placed text (Statement.readRef cur) := by
  have hskip := h.skipBlanks
  rw [reference, skipBlanks_place h, Statement.readRef]
  simp only [bind, Except.bind, column_place hskip, identifier?_place hskip]
  by_cases hid : cur.skipBlanks.identifier.isEmpty = true
  · rw [if_pos hid, if_pos hid]
    rfl
  · have hbehind := hskip.place_of_passes (Cursor.passes_advance (List.takeWhile_prefix isIdChar))
    rw [← Cursor.identifier] at hbehind
    simp only [if_neg hid, ← hbehind, shape_place (Statement.isIn_behind_identifier h)]
    cases Statement.readShape (cur.skipBlanks.advance cur.skipBlanks.identifier.length) <;> rfl

/-! ## Links -/

/-- The arrow that the scan finds is the one that the reader finds. -/
theorem readArrow?_eq (cur : Cursor) : Statement.readArrow? cur = (arrow? cur.rest).map fun (arrow, text?, token) =>
    (arrow, text?, cur.advance token.length) := by
  unfold Statement.readArrow? arrow?
  cases hinline : Statement.readInlineArrow? cur.rest with
  | some found =>
    simp only [Option.map_some, List.length_take_of_le (Statement.length_of_readInlineArrow? hinline)]
  | none =>
    cases hplain : Statement.readPlainArrow? cur.rest with
    | none => rfl
    | some length =>
      simp only [Option.map_some, List.length_take_of_le (Statement.length_of_readPlainArrow? hplain)]

/-- The spelling of the arrow comes first. -/
theorem prefix_of_arrow? {rest token : List Char} {arrow : Arrow} {text? : Option String}
    (h : arrow? rest = some (arrow, text?, token)) : token <+: rest := by
  unfold arrow? at h
  split at h
  · cases h
    exact List.take_prefix _ _
  · obtain ⟨length, -, heq⟩ := Option.map_eq_some_iff.1 h
    cases heq
    exact List.take_prefix _ _

/-- Behind a pipe stands what the reader has left there. -/
theorem rest_behind_pipe {passed : Nat} {rest : List Char} (h : Cursor.IsIn ⟨passed, '|' :: rest⟩ text) :
    Scan.rest text (Cursor.place text ⟨passed, '|' :: rest⟩ + 1) = .ok rest := by
  have hinside := rest_place (h.advance (n := 1) (by simp))
  rwa [h.place_advance (by simp)] at hinside

/-- The link that the scan finds is the one that the reader finds. -/
theorem joint_place (h : cur.IsIn text) : joint text (cur.place text) = placed text (Statement.readLink cur) := by
  rw [joint, column_place h, Statement.readLink, readArrow?_eq]
  simp only [bind, Except.bind, link, rest_place h]
  cases harrow : arrow? cur.rest with
  | none =>
    simp only [Option.map_none, pure, Except.pure, rest_place h]
    rfl
  | some found =>
    obtain ⟨arrow, text?, token⟩ := found
    have hprefix := prefix_of_arrow? harrow
    have hbehind := h.advance hprefix.length_le
    simp only [Option.map_some, ← h.place_of_passes (Cursor.passes_advance hprefix), skipBlanks_place hbehind,
      rest_place hbehind.skipBlanks]
    have hnext := hbehind.skipBlanks
    generalize (cur.advance token.length).skipBlanks = next at hnext ⊢
    obtain ⟨passed, left⟩ := next
    by_cases hpipe : left.head? = some '|'
    · obtain ⟨rest, rfl⟩ := List.head?_eq_some_iff.1 hpipe
      have hrest := rest_behind_pipe hnext
      simp only [hrest, placeOf?_char]
      by_cases hclosed : (rest.takeWhile (· != '|')).length < rest.length
      · have hpassed := hnext.place_of_passes (Statement.passes_label passed hclosed)
        have hpipes : '|'.utf8Size = 1 := rfl
        simp only [size_cons, size_append, size_nil, hpipes] at hpassed
        simp only [if_pos hclosed, cut_takeWhile, pure, Except.pure, placed, Except.map, Except.mapError, hpassed]
        congr 2
        omega
      · simp only [if_neg hclosed, pure, Except.pure, hrest]
        rfl
    · cases left with
      | nil => rfl
      | cons c left =>
        have hc : c ≠ '|' := fun hc => hpipe (by rw [hc]; rfl)
        simp [hc, pure, Except.pure, placed, Except.map, Except.mapError]

/-! ## Rounds -/

section Rounds

variable {behind : Cursor} {ref : NodeRef} (group : List NodeRef) (parts : Parts)

/-- A round fails where the reader finds no reference. -/
theorem round_of_error {e : StatementError} (h : cur.IsIn text) (href : Statement.readRef cur = .error e) :
    round text ⟨cur.place text, group, parts⟩ = .error (.fault e) := by
  rw [round, reference_place h, href]
  rfl

/-- A reference with nothing behind it ends the scan. -/
theorem round_of_nil (h : cur.IsIn text) (href : Statement.readRef cur = .ok (ref, behind))
    (hrest : behind.skipBlanks.rest = []) :
    round text ⟨cur.place text, group, parts⟩ =
      .ok (.ends { parts with groups := parts.groups ++ [group ++ [ref]] }) := by
  have hbehind := (Statement.standsAt_of_readRef href h).2
  have hsize := hbehind.skipBlanks.place_add_size
  rw [hrest, size_nil, Nat.add_zero] at hsize
  rw [round, reference_place h, href]
  change (skipBlanks text (behind.place text) >>= _) = _
  rw [skipBlanks_place hbehind]
  change (if size text ≤ behind.skipBlanks.place text then _ else _) = _
  rw [if_pos (Nat.le_of_eq hsize.symm)]
  rfl

/-- What is behind a reference, if there is something, is looked at. -/
theorem round_of_cons {c : Char} {rest : List Char} (h : cur.IsIn text) (href : Statement.readRef cur = .ok (ref, behind))
    (hrest : behind.skipBlanks.rest = c :: rest) :
    round text ⟨cur.place text, group, parts⟩ =
      if c = '&' then .ok (.goes ⟨(behind.skipBlanks.advance 1).place text, group ++ [ref],
        { parts with ampersands := parts.ampersands ++ [behind.skipBlanks.place text] }⟩)
      else (placed text (Statement.readLink behind.skipBlanks)).map fun (link, next) =>
        .goes ⟨next, [], { parts with groups := parts.groups ++ [group ++ [ref]], links := parts.links ++ [link] }⟩ := by
  have hbehind := (Statement.standsAt_of_readRef href h).2
  have hsize := hbehind.skipBlanks.place_add_size
  have hpos := c.utf8Size_pos
  rw [hrest, size_cons] at hsize
  rw [round, reference_place h, href]
  change (skipBlanks text (behind.place text) >>= _) = _
  rw [skipBlanks_place hbehind]
  change (if size text ≤ behind.skipBlanks.place text then _ else _) = _
  rw [if_neg (by omega), rest_place hbehind.skipBlanks, hrest]
  by_cases hc : c = '&'
  · subst hc
    rw [if_pos rfl, hbehind.skipBlanks.place_advance (by simp [hrest]), hrest]
    rfl
  · rw [if_neg hc, ← joint_place hbehind.skipBlanks]
    cases joint text (behind.skipBlanks.place text) <;>
      simp [hc, bind, Except.bind, Except.map, pure, Except.pure]

end Rounds

/-! ## The whole statement -/

/-- A scan fails if a round fails. -/
theorem run_of_error {st : State} {e : Failure} (h : round text st = .error e) : run text st = .error e := by
  rw [run]
  split <;> simp_all

/-- A scan comes to what its last round comes to. -/
theorem run_of_ends {st : State} {parts : Parts} (h : round text st = .ok (.ends parts)) : run text st = .ok parts := by
  rw [run]
  split <;> simp_all

/-- A round that is followed by another hands the scan on to it. -/
theorem run_of_goes {st st' : State} (h : round text st = .ok (.goes st')) : run text st = run text st' := by
  conv_lhs => rw [run]
  split <;> simp_all

/-- The parts that a scan comes to, if what is left to be read is a statement: its first group takes up the one that is being
filled. -/
def close (text : List Char) (group : List NodeRef) (parts : Parts) (s : Statement) : Parts where
  groups := parts.groups ++ (group ++ s.first.refs) :: s.steps.map (·.2.refs)
  links := parts.links ++ s.links
  ampersands := parts.ampersands ++ s.ampersands.map (offset text)

/-- A reference in front of the first group is one more in the group that is being filled. -/
theorem close_addRef (text : List Char) (group : List NodeRef) (parts : Parts) (ref : NodeRef) (column : Nat)
    (s : Statement) : close text group parts (s.addRef ref column) =
      close text (group ++ [ref]) { parts with ampersands := parts.ampersands ++ [offset text column] } s := by
  simp [close, Statement.addRef, NodeGroup.refs, Statement.links, Statement.ampersands, Statement.groups]

/-- A group in front of the others closes the group that is being filled. -/
theorem close_addLink (text : List Char) (group : List NodeRef) (parts : Parts) (ref : NodeRef) (link : Link)
    (s : Statement) : close text group parts (s.addLink ref link) =
      close text [] { parts with groups := parts.groups ++ [group ++ [ref]], links := parts.links ++ [link] } s := by
  simp [close, Statement.addLink, NodeGroup.refs, Statement.links, Statement.ampersands, Statement.groups]

/-- A scan that is under way comes to what the reader makes of what is left. -/
theorem run_eq (h : cur.IsIn text) (group : List NodeRef) (parts : Parts) :
    run text ⟨cur.place text, group, parts⟩ =
      ((Statement.readFrom cur).map (close text group parts)).mapError .fault := by
  fun_induction Statement.readFrom cur generalizing group parts with
  | case1 cur e href =>
    rw [run_of_error (round_of_error group parts h href)]
    rfl
  | case2 cur ref behind href hrest =>
    rw [run_of_ends (round_of_nil group parts h href hrest)]
    simp [Except.map, Except.mapError, close, NodeGroup.refs, Statement.links, Statement.ampersands, Statement.groups]
  | case3 cur ref behind href rest hrest ih =>
    have hbehind := (Statement.standsAt_of_readRef href h).2
    have hround := round_of_cons group parts h href hrest
    rw [if_pos rfl] at hround
    rw [run_of_goes hround, ih (hbehind.skipBlanks.advance (by simp [hrest]))]
    cases Statement.readFrom (behind.skipBlanks.advance 1) with
    | error e => rfl
    | ok s => exact congrArg Except.ok (close_addRef text group parts ref behind.skipBlanks.column s).symm
  | case4 cur ref behind href e hlink hnil hamp =>
    obtain ⟨c, rest, hrest⟩ := List.exists_cons_of_ne_nil hnil
    have hc : c ≠ '&' := fun hc => hamp rest (by rw [hrest, hc])
    have hround := round_of_cons group parts h href hrest
    rw [if_neg hc, hlink] at hround
    rw [run_of_error hround]
    rfl
  | case5 cur ref behind href link next hlink hnil hamp ih =>
    obtain ⟨c, rest, hrest⟩ := List.exists_cons_of_ne_nil hnil
    have hc : c ≠ '&' := fun hc => hamp rest (by rw [hrest, hc])
    have hbehind := (Statement.standsAt_of_readRef href h).2
    have hround := round_of_cons group parts h href hrest
    rw [if_neg hc, hlink] at hround
    rw [run_of_goes hround, ih (Statement.isIn_of_readLink hlink hbehind.skipBlanks)]
    cases Statement.readFrom next with
    | error e => rfl
    | ok s => exact congrArg Except.ok (close_addLink text group parts ref link s).symm

/-- A scan comes to the parts of the statement that the reader finds, and fails only where the reader finds none. -/
theorem scan_eq (text : List Char) :
    scan text = ((Statement.parse text).map (close text [] {})).mapError .fault :=
  run_eq (Cursor.isIn_start text) [] {}

end Scan

end Whiteboard
