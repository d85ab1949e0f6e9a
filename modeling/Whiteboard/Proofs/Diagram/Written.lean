import Whiteboard.Proofs.Diagram.Statement

/-!
# Written statements

A statement is written with blanks around every `&` and every arrow, with its labels between quotes and the labels of its
links between pipes. Main statements: what is written so is read back as it is, but for the columns (`Statement.parse_text`),
and a line with it is a statement unless its first word makes it something else (`Statement.classify_text`). The lines of
nodes and edges in a diagram text are such lines.

A statement is built from its last reference, each time with one more reference in front of its first group or one more group
linked to it (`Statement.chainRec`). The reader goes through a text in the same steps, so reading back is an induction along
them.
-/

namespace Whiteboard

open Text

/-! ## Writing -/

/-- The characters of a bracket pair with its label between quotes. -/
def ShapeSpan.text (span : ShapeSpan) : List Char :=
  span.shape.opener.toList ++ ('"' :: span.label.toList ++ '"' :: span.shape.closer.toList)

/-- The characters of a reference. -/
def NodeRef.text (ref : NodeRef) : List Char := ref.id.toList ++ ref.span?.elim [] (·.text)

/-- The characters of a node group. -/
def NodeGroup.text (group : NodeGroup) : List Char :=
  group.first.text ++ group.more.flatMap fun (_, ref) => ' ' :: '&' :: ' ' :: ref.text

/-- The characters of a link that is solid or dashed. -/
def Link.text (link : Link) : List Char :=
  (arrowToken (link.arrow == .dashed)).toList ++ link.label?.elim [] fun label => '|' :: label.toList ++ ['|']

/-- The characters of a statement. -/
def Statement.text (s : Statement) : List Char :=
  s.first.text ++ s.steps.flatMap fun (link, group) => ' ' :: link.text ++ ' ' :: group.text

/-- A bracket pair that can be written: its shape has brackets of its own, and its label stands between quotes. -/
structure ShapeSpan.IsWritable (span : ShapeSpan) : Prop where
  shape : span.shape ≠ .ellipse
  quoted : span.quoted = true
  label : '"' ∉ span.label.toList

/-- A reference that can be written: its id is a word. -/
structure NodeRef.IsWritable (ref : NodeRef) : Prop where
  id : IsWord ref.id
  span : ∀ span ∈ ref.span?, span.IsWritable

/-- A link that can be written: it is solid or dashed, and its label is trimmed and holds no pipe. -/
structure Link.IsWritable (link : Link) : Prop where
  arrow : link.arrow ≠ .other
  label : ∀ label ∈ link.label?, IsTrimmed label.toList ∧ '|' ∉ label.toList

/-- A statement that can be written. -/
structure Statement.IsWritable (s : Statement) : Prop where
  refs : ∀ ref ∈ s.refs, ref.IsWritable
  links : ∀ link ∈ s.links, link.IsWritable

instance (span : ShapeSpan) : Decidable span.IsWritable :=
  decidable_of_iff (span.shape ≠ .ellipse ∧ span.quoted = true ∧ '"' ∉ span.label.toList)
    ⟨fun h => ⟨h.1, h.2.1, h.2.2⟩, fun h => ⟨h.shape, h.quoted, h.label⟩⟩

instance (ref : NodeRef) : Decidable ref.IsWritable :=
  decidable_of_iff (IsWord ref.id ∧ ∀ span ∈ ref.span?, span.IsWritable)
    ⟨fun h => ⟨h.1, h.2⟩, fun h => ⟨h.id, h.span⟩⟩

instance (link : Link) : Decidable link.IsWritable :=
  decidable_of_iff (link.arrow ≠ .other ∧ ∀ label ∈ link.label?, IsTrimmed label.toList ∧ '|' ∉ label.toList)
    ⟨fun h => ⟨h.1, h.2⟩, fun h => ⟨h.arrow, h.label⟩⟩

instance (s : Statement) : Decidable s.IsWritable :=
  decidable_of_iff ((∀ ref ∈ s.refs, ref.IsWritable) ∧ ∀ link ∈ s.links, link.IsWritable)
    ⟨fun h => ⟨h.1, h.2⟩, fun h => ⟨h.refs, h.links⟩⟩

/-! ## Columns -/

/-- The reference without its column. -/
def NodeRef.unplaced (ref : NodeRef) : NodeRef := { ref with column := 0 }

/-- The group without its columns. -/
def NodeGroup.unplaced (group : NodeGroup) : NodeGroup :=
  ⟨group.first.unplaced, group.more.map fun (_, ref) => (0, ref.unplaced)⟩

/-- The link without its column. -/
def Link.unplaced (link : Link) : Link := { link with column := 0 }

/-- The statement without its columns. -/
def Statement.unplaced (s : Statement) : Statement :=
  ⟨s.first.unplaced, s.steps.map fun (link, group) => (link.unplaced, group.unplaced)⟩

namespace Statement

/-! ## Statements built from the end -/

/-- A statement is a single reference, or has one more reference or one more group in front of a statement. A group grows from a
group of one reference, with the same links behind it. -/
@[elab_as_elim]
theorem chainRec {motive : Statement → Prop} (single : ∀ ref, motive ⟨⟨ref, []⟩, []⟩)
    (addRef : ∀ ref ampersand s, motive s → motive (addRef ref ampersand s))
    (addLink : ∀ ref link s, motive s → motive (addLink ref link s)) (s : Statement) : motive s := by
  have hgroup : ∀ steps, (∀ ref, motive ⟨⟨ref, []⟩, steps⟩) → ∀ group, motive ⟨group, steps⟩ := by
    rintro steps hfirst ⟨ref, more⟩
    induction more generalizing ref with
    | nil => exact hfirst ref
    | cons next more ih => exact addRef ref next.1 ⟨⟨next.2, more⟩, steps⟩ (ih next.2)
  obtain ⟨group, steps⟩ := s
  induction steps generalizing group with
  | nil => exact hgroup [] single group
  | cons step steps ih => exact hgroup _ (fun ref => addLink ref step.1 ⟨step.2, steps⟩ (ih step.2)) group

theorem text_addRef (ref : NodeRef) (ampersand : Nat) (s : Statement) :
    (addRef ref ampersand s).text = ref.text ++ ' ' :: '&' :: ' ' :: s.text := by
  simp [addRef, text, NodeGroup.text]

theorem text_addLink (ref : NodeRef) (link : Link) (s : Statement) :
    (addLink ref link s).text = ref.text ++ ' ' :: (link.text ++ ' ' :: s.text) := by
  simp [addLink, text, NodeGroup.text]

theorem unplaced_addRef (ref : NodeRef) (ampersand : Nat) (s : Statement) :
    (addRef ref ampersand s).unplaced = addRef ref.unplaced 0 s.unplaced := rfl

theorem unplaced_addLink (ref : NodeRef) (link : Link) (s : Statement) :
    (addLink ref link s).unplaced = addLink ref.unplaced link.unplaced s.unplaced := rfl

/-- A writable statement of one reference has a writable reference. -/
theorem IsWritable.of_single {ref : NodeRef} (h : (⟨⟨ref, []⟩, []⟩ : Statement).IsWritable) : ref.IsWritable :=
  h.refs ref (by simp [refs_single])

/-- The reference in front of a writable statement can be written, and so can the rest. -/
theorem IsWritable.of_addRef {ref : NodeRef} {ampersand : Nat} {s : Statement}
    (h : (addRef ref ampersand s).IsWritable) : ref.IsWritable ∧ s.IsWritable := by
  obtain ⟨hrefs, hlinks⟩ := h
  rw [refs_addRef, List.forall_mem_cons] at hrefs
  exact ⟨hrefs.1, hrefs.2, hlinks⟩

/-- The reference and the link in front of a writable statement can be written, and so can the rest. -/
theorem IsWritable.of_addLink {ref : NodeRef} {link : Link} {s : Statement}
    (h : (addLink ref link s).IsWritable) : ref.IsWritable ∧ link.IsWritable ∧ s.IsWritable := by
  obtain ⟨hrefs, hlinks⟩ := h
  rw [refs_addLink, List.forall_mem_cons] at hrefs
  rw [links_addLink, List.forall_mem_cons] at hlinks
  exact ⟨hrefs.1, hlinks.1, hrefs.2, hlinks.2⟩

/-- A statement that can be written begins with an id. -/
theorem IsWritable.startsWithIdChar {s : Statement} (h : s.IsWritable) : StartsWithIdChar s.text := by
  have hmem : s.first.first ∈ s.refs := by simp [Statement.refs, groups, NodeGroup.refs]
  have hfirst := (h.refs _ hmem).id
  rw [text, NodeGroup.text, NodeRef.text, List.append_assoc, List.append_assoc]
  exact hfirst.startsWithIdChar _

/-! ## Reading back -/

/-- A written reference is read back, wherever it stands and if neither an identifier nor a bracket goes on behind it. -/
theorem readRef_text (p : Nat) (blanks rest : List Char) {ref : NodeRef} (hb : ∀ c ∈ blanks, isBlank c = true)
    (h : ref.IsWritable) (hr : ∀ c ∈ rest.head?, isIdChar c = false ∧ c ∉ bracketStarts) :
    ∃ ref' q, readRef ⟨p, blanks ++ (ref.text ++ rest)⟩ = .ok (ref', ⟨q, rest⟩) ∧ ref'.unplaced = ref.unplaced := by
  obtain ⟨id, span?, column⟩ := ref
  cases span? with
  | none =>
    have htext : NodeRef.text ⟨id, none, column⟩ = id.toList := by simp [NodeRef.text]
    rw [htext]
    exact ⟨_, _, readRef_bare p blanks rest hb h.id hr, rfl⟩
  | some span =>
    obtain ⟨shape, label, quoted⟩ := span
    obtain ⟨hshape, rfl, hlabel⟩ := h.span _ rfl
    have htext : NodeRef.text ⟨id, some ⟨shape, label, true⟩, column⟩ ++ rest =
        id.toList ++ (shape.opener.toList ++ ('"' :: label.toList ++ '"' :: shape.closer.toList ++ rest)) := by
      simp [NodeRef.text, ShapeSpan.text]
    have hnormalized : shape.normalized = shape := by
      cases shape
      case ellipse => exact absurd rfl hshape
      all_goals rfl
    obtain ⟨q, hread⟩ := readRef_quoted p blanks hb h.id shape hlabel rest
    rw [hnormalized, String.ofList_toList, ← htext] at hread
    exact ⟨_, q, hread, rfl⟩

/-- A written link is read back before a blank and a text that begins with an identifier character. -/
theorem readLink_text (p : Nat) {link : Link} {rest : List Char} (h : link.IsWritable) (hr : StartsWithIdChar rest) :
    ∃ link' q, readLink ⟨p, link.text ++ ' ' :: rest⟩ = .ok (link', ⟨q, ' ' :: rest⟩) ∧
      link'.unplaced = link.unplaced := by
  obtain ⟨arrow, label?, column⟩ := link
  have harrow : arrowStyle (arrow == .dashed) = arrow := by
    cases arrow
    case solid | dashed => rfl
    case other => exact absurd rfl h.arrow
  cases label? with
  | none =>
    have hhead : ∀ c ∈ rest.head?, isBlank c = false ∧ c ≠ '|' := by
      intro c hc
      refine ⟨hr.head c hc, ?_⟩
      obtain ⟨d, ds, rfl, hd⟩ := hr
      cases hc
      exact ne_of_isIdChar hd (by decide)
    have hread := readLink_bare p (arrow == .dashed) [' '] rest (List.all_iff_forall_prop.1 (by decide)) hhead
    have htext : Link.text ⟨arrow, none, column⟩ = (arrowToken (arrow == .dashed)).toList := by simp [Link.text]
    rw [harrow, List.singleton_append, ← htext] at hread
    exact ⟨_, _, hread, rfl⟩
  | some label =>
    obtain ⟨htrimmed, hpipe⟩ := h.label label rfl
    obtain ⟨q, hread⟩ := readLink_label p (arrow == .dashed) label.toList (' ' :: rest) hpipe
    have htext : Link.text ⟨arrow, some label, column⟩ ++ ' ' :: rest =
        (arrowToken (arrow == .dashed)).toList ++ ('|' :: label.toList ++ '|' :: ' ' :: rest) := by
      simp [Link.text]
    rw [harrow, htrimmed.trim_eq, String.ofList_toList, ← htext] at hread
    exact ⟨_, q, hread, rfl⟩

/-- A written statement is read back, wherever it stands. Behind a reference the reader skips the blank and stands at the `&` or
at the arrow. -/
theorem readFrom_text {s : Statement} (h : s.IsWritable) (p : Nat) (blanks : List Char)
    (hb : ∀ c ∈ blanks, isBlank c = true) :
    ∃ s', readFrom ⟨p, blanks ++ s.text⟩ = .ok s' ∧ s'.unplaced = s.unplaced := by
  have hspace : ∀ c ∈ [' '], isBlank c = true := List.all_iff_forall_prop.1 (by decide)
  have hbehind : ∀ rest : List Char, ∀ c ∈ (' ' :: rest).head?, isIdChar c = false ∧ c ∉ bracketStarts := by
    rintro rest c ⟨⟩
    decide
  induction s using chainRec generalizing p blanks with
  | single ref =>
    obtain ⟨ref', q, hread, heq⟩ := readRef_text p blanks [] hb h.of_single (by simp)
    refine ⟨⟨⟨ref', []⟩, []⟩, ?_, by simp [unplaced, NodeGroup.unplaced, heq]⟩
    rw [← readFrom_last hread rfl]
    simp [text, NodeGroup.text]
  | addRef ref ampersand s ih =>
    obtain ⟨href, hs⟩ := h.of_addRef
    obtain ⟨ref', q, hread, hsame⟩ := readRef_text p blanks _ hb href (hbehind ('&' :: ' ' :: s.text))
    have hskip : (⟨q, ' ' :: '&' :: ' ' :: s.text⟩ : Cursor).skipBlanks = ⟨q + [' '].length, '&' :: ' ' :: s.text⟩ :=
      Cursor.skipBlanks_append q [' '] hspace (by simp; decide)
    obtain ⟨s', hread', hsame'⟩ := ih hs (q + [' '].length + 1) [' '] hspace
    refine ⟨addRef ref' (q + [' '].length + 1) s', ?_, ?_⟩
    · rw [text_addRef, readFrom_ampersand hread (by rw [hskip]; rfl), hskip]
      exact congrArg (Except.map _) hread'
    · rw [unplaced_addRef, unplaced_addRef, hsame, hsame']
  | addLink ref link s ih =>
    obtain ⟨href, hlink, hs⟩ := h.of_addLink
    obtain ⟨ref', q, hread, hsame⟩ := readRef_text p blanks _ hb href (hbehind (link.text ++ ' ' :: s.text))
    obtain ⟨c, hc, hblank, hamp⟩ : ∃ c, (link.text ++ ' ' :: s.text).head? = some c ∧ isBlank c = false ∧ c ≠ '&' := by
      rw [Link.text]
      cases link.arrow == .dashed <;> exact ⟨_, rfl, by decide, by decide⟩
    have hhead : ∀ d ∈ (link.text ++ ' ' :: s.text).head?, isBlank d = false := by
      rw [hc]
      rintro d ⟨⟩
      exact hblank
    have hskip : (⟨q, ' ' :: (link.text ++ ' ' :: s.text)⟩ : Cursor).skipBlanks =
        ⟨q + [' '].length, link.text ++ ' ' :: s.text⟩ :=
      Cursor.skipBlanks_append q [' '] hspace hhead
    obtain ⟨link', q', hthrough, hsame'⟩ := readLink_text (q + [' '].length) hlink hs.startsWithIdChar
    obtain ⟨s', hread', hsame''⟩ := ih hs q' [' '] hspace
    refine ⟨addLink ref' link' s', ?_, ?_⟩
    · rw [text_addLink, readFrom_link hread (by rw [hskip]; exact hc) hamp (by rw [hskip]; exact hthrough)]
      exact congrArg (Except.map _) hread'
    · rw [unplaced_addLink, unplaced_addLink, hsame, hsame', hsame'']

/-- A written statement is read back. -/
theorem parse_text {s : Statement} (h : s.IsWritable) : ∃ s', parse s.text = .ok s' ∧ s'.unplaced = s.unplaced :=
  readFrom_text h 0 [] (by simp)

/-! ## A written statement as a line -/

/-- A text that ends with neither a blank nor a semicolon. -/
def EndsFirmly (s : List Char) : Prop := ∃ front c, s = front ++ [c] ∧ isBlank c = false ∧ (c == ';') = false

theorem EndsFirmly.append_left {t : List Char} (h : EndsFirmly t) (s : List Char) : EndsFirmly (s ++ t) := by
  obtain ⟨front, c, rfl, hc⟩ := h
  exact ⟨s ++ front, c, (List.append_assoc _ _ _).symm, hc⟩

/-- What ends firmly ends neither with a blank nor with a semicolon. -/
theorem EndsFirmly.getLast? {s : List Char} (h : EndsFirmly s) :
    ∀ c ∈ s.getLast?, isBlank c = false ∧ (c == ';') = false := by
  obtain ⟨front, c, rfl, hc⟩ := h
  rw [List.getLast?_concat]
  rintro d ⟨⟩
  exact hc

/-- A written reference ends with an identifier character or a bracket. -/
theorem endsFirmly_ref {ref : NodeRef} (h : ref.IsWritable) : EndsFirmly ref.text := by
  rw [NodeRef.text]
  cases ref.span? with
  | none =>
    rcases List.eq_nil_or_concat ref.id.toList with hnil | ⟨front, c, hconcat⟩
    · exact absurd hnil h.id.toList_ne_nil
    · rw [List.concat_eq_append] at hconcat
      have hc : isIdChar c = true := h.id.2 c (by simp [hconcat])
      have hsemi : (c == ';') = false := by simpa using ne_of_isIdChar hc (by decide)
      exact ⟨front, c, by simp [hconcat], isBlank_of_isIdChar hc, hsemi⟩
  | some span =>
    obtain ⟨front, c, hcloser, hc⟩ := exists_closer span.shape
    have hend : EndsFirmly (['"'] ++ span.shape.closer.toList) := EndsFirmly.append_left ⟨front, c, hcloser, hc⟩ _
    exact ((hend.append_left ('"' :: span.label.toList)).append_left span.shape.opener.toList).append_left ref.id.toList

/-- So does a written statement. -/
theorem IsWritable.endsFirmly {s : Statement} (h : s.IsWritable) : EndsFirmly s.text := by
  induction s using chainRec with
  | single ref =>
    have htext : Statement.text ⟨⟨ref, []⟩, []⟩ = ref.text := by simp [text, NodeGroup.text]
    rw [htext]
    exact endsFirmly_ref h.of_single
  | addRef ref ampersand s ih =>
    rw [text_addRef]
    exact ((ih h.of_addRef.2).append_left [' ', '&', ' ']).append_left ref.text
  | addLink ref link s ih =>
    rw [text_addLink]
    exact (((ih h.of_addLink.2.2).append_left [' ']).append_left (' ' :: link.text)).append_left ref.text

/-- A written statement with a link is no closing line. -/
theorem steps_eq_nil_of_text_eq {s : Statement} (h : s.text = groupCloseLine.toList) : s.steps = [] := by
  cases hsteps : s.steps with
  | nil => rfl
  | cons step steps =>
    have hmem : ' ' ∈ s.text := by simp [text, hsteps]
    rw [h] at hmem
    exact absurd hmem (by decide)

/-- A line with a written statement, if it is not the closing line and its first word is no keyword. -/
theorem classify_text {s : Statement} (h : s.IsWritable) (hword : String.ofList (Line.firstWord s.text) ∉ lineKeywords)
    (hclose : s.text ≠ groupCloseLine.toList) (n : Nat) :
    Line.classify (List.replicate n ' ' ++ s.text) = .statement s.text := by
  have hlast := h.endsFirmly.getLast?
  have hrest : String.ofList (Line.firstWord s.text) ≠ groupCloseLine ∨ Line.afterFirstWord s.text ≠ [] := by
    by_cases hfirst : Line.firstWord s.text = s.text
    · refine Or.inl fun heq => hclose ?_
      rw [← heq, String.toList_ofList, hfirst]
    · exact Or.inr (Line.afterFirstWord_ne_nil hlast hfirst)
  rw [Line.classify_indented h.startsWithIdChar fun c hc => (hlast c hc).1, Line.ofFirstWord_of_notMem hword hrest,
    dropEndWhile_eq_self fun c hc => (hlast c hc).2]

end Statement

end Whiteboard
