import Whiteboard.Diagram.Document
import Whiteboard.Proofs.Diagram.Statement
import Whiteboard.Except
import Mathlib.Data.List.Nodup

/-!
# What reading guarantees

Every text reads as a well-formed document (`Document.wellFormed_parse`), whatever else it holds: node ids are words and
no two nodes share one, an edge joins nodes of the document, a node stands in a group of the document, shapes are in
normal form, and labels are decoded. The predicate `p` stands for what is known of the characters of the text; every
label inherits it.

`Document.WellFormed` is an invariant of reading: it holds of the empty document, and every line preserves it.
-/

namespace Whiteboard

open Text

variable {p : Char → Prop}

/-! ## Labels -/

/-- A label as it is read: nothing is left to decode, and its characters satisfy `p`. -/
structure IsLabel (p : Char → Prop) (label : String) : Prop where
  decoded : Label.IsDecoded label.toList
  chars : ∀ c ∈ label.toList, p c

/-- What `p` has to hold of so that decoding does not leave it: the two characters that decoding brings in. -/
structure HoldsOfDecoded (p : Char → Prop) : Prop where
  quote : p '"'
  newline : p '\n'

/-- A decoded text is a label. -/
theorem isLabel_decodeChars (hp : HoldsOfDecoded p) {raw : List Char} (hraw : ∀ c ∈ raw, p c) :
    IsLabel p (String.ofList (Label.decodeChars raw)) := by
  refine ⟨?_, ?_⟩
  · rw [String.toList_ofList]
    exact Label.isDecoded_decodeChars raw
  · intro c hc
    rw [String.toList_ofList] at hc
    rcases Label.mem_of_mem_decodeChars hc with rfl | rfl | hc
    · exact hp.quote
    · exact hp.newline
    · exact hraw c hc

/-- A decoded string is a label. -/
theorem isLabel_decode (hp : HoldsOfDecoded p) {raw : String} (hraw : ∀ c ∈ raw.toList, p c) :
    IsLabel p (Label.decode raw) :=
  isLabel_decodeChars hp hraw

/-- A word is decoded: it holds no blank, and no token is made of identifier characters. -/
theorem IsWord.isDecoded {id : String} (h : IsWord id) : Label.IsDecoded id.toList := by
  have hno : ∀ token : List Char, token.all isIdChar = false → ¬ token <:+: id.toList := by
    rintro token hall hpart
    exact absurd (List.all_eq_true.2 fun c hc => h.2 c (hpart.subset hc)) (by simp [hall])
  refine ⟨⟨fun c hc => ?_, fun c hc => ?_⟩, hno _ (by decide), hno _ (by decide), hno _ (by decide)⟩
  · exact isBlank_of_isIdChar (h.2 c (List.mem_of_mem_head? hc))
  · exact isBlank_of_isIdChar (h.2 c (List.mem_of_mem_getLast? hc))

/-! ## Statements -/

/-- What comes before a text that is found, and what comes after it, are parts of the whole. -/
theorem Text.subset_of_breakOn? {pat s before after : List Char} (h : breakOn? pat s = some (before, after)) :
    before ⊆ s := by
  induction s generalizing before with
  | nil =>
    simp only [breakOn?] at h
    split at h
    · cases h
      exact List.Subset.refl _
    · cases h
  | cons c cs ih =>
    rw [breakOn?] at h
    split at h
    · cases h
      exact List.nil_subset _
    · obtain ⟨⟨before', after'⟩, hrest, heq⟩ := Option.map_eq_some_iff.1 h
      cases heq
      exact List.cons_subset_cons c (ih hrest)

namespace Statement

/-- A reference as it is read from a text whose characters satisfy `p`. -/
structure RefIsRead (p : Char → Prop) (ref : NodeRef) : Prop where
  id_word : IsWord ref.id
  shape : ∀ span ∈ ref.span?, span.shape.normalized = span.shape
  label : ∀ span ∈ ref.span?, ∀ c ∈ span.label.toList, p c

/-- A link as it is read from such a text: its label holds no pipe. -/
def LinkIsRead (p : Char → Prop) (link : Link) : Prop := ∀ l ∈ link.label?, ∀ c ∈ l.toList, p c ∧ c ≠ '|'

/-- A statement as it is read from such a text. -/
structure IsRead (p : Char → Prop) (s : Statement) : Prop where
  refs : ∀ ref ∈ s.refs, RefIsRead p ref
  links : ∀ link ∈ s.links, LinkIsRead p link

theorem suffix_advance (cur : Cursor) (n : Nat) : (cur.advance n).rest <:+ cur.rest := List.drop_suffix _ _

theorem suffix_skipBlanks (cur : Cursor) : cur.skipBlanks.rest <:+ cur.rest := suffix_advance cur _

/-- The characters of a label are some of the text. -/
theorem subset_of_readLabel? {closer rest label : List Char} {quoted : Bool} {n : Nat}
    (h : readLabel? closer rest = some (label, quoted, n)) : label ⊆ rest := by
  unfold readLabel? at h
  split at h
  · simp only at h
    split at h
    · cases h
      exact List.subset_cons_of_subset _ (List.takeWhile_prefix _).subset
    · cases h
  · obtain ⟨⟨before, after⟩, hb, heq⟩ := Option.map_eq_some_iff.1 h
    cases heq
    exact subset_of_breakOn? hb

/-- A shape that is read is in normal form, its label is taken from the text, and the text goes on behind it. -/
theorem readShape_spec {cur next : Cursor} {span? : Option ShapeSpan} (h : readShape cur = .ok (span?, next)) :
    next.rest <:+ cur.rest ∧
    ∀ span ∈ span?, span.shape.normalized = span.shape ∧ span.label.toList ⊆ cur.rest := by
  unfold readShape at h
  split at h
  · cases h
  · split at h
    · cases h
      exact ⟨List.suffix_refl _, by simp⟩
    · rename_i shape hshape
      split at h
      · cases h
      · rename_i hlabel
        cases h
        refine ⟨suffix_advance cur _, ?_⟩
        rintro span ⟨⟩
        refine ⟨?_, ?_⟩
        · have hall : ∀ s ∈ bracketedShapes, s.normalized = s := by decide
          exact hall _ (List.mem_of_find?_eq_some hshape)
        · rw [String.toList_ofList]
          exact List.Subset.trans (subset_of_readLabel? hlabel) (List.drop_subset _ _)

/-- What a reference is that is read, and that the text goes on behind it. -/
theorem readRef_spec {start next : Cursor} {ref : NodeRef} (h : readRef start = .ok (ref, next))
    (hp : ∀ c ∈ start.rest, p c) : RefIsRead p ref ∧ next.rest <:+ start.rest := by
  unfold readRef at h
  simp only at h
  split at h
  · cases h
  · rename_i hid
    obtain ⟨⟨span?, next'⟩, hs, heq⟩ := exists_of_map_eq_ok h
    cases heq
    obtain ⟨hnext, hspan⟩ := readShape_spec hs
    have hskip := (suffix_advance start.skipBlanks start.skipBlanks.identifier.length).trans (suffix_skipBlanks start)
    refine ⟨⟨⟨?_, ?_⟩, fun span hs => (hspan span hs).1, ?_⟩, hnext.trans hskip⟩
    · intro hnil
      simp only [String.ofList_eq_empty_iff] at hnil
      simp [hnil] at hid
    · intro c hc
      rw [String.toList_ofList] at hc
      exact List.mem_takeWhile_imp hc
    · intro span hs c hc
      exact hp c (hskip.subset ((hspan span hs).2 hc))

/-- The text inside an arrow holds no pipe. -/
theorem readInlineArrow?_spec {rest : List Char} {label : String} {n : Nat}
    (h : readInlineArrow? rest = some (label, n)) : ∀ c ∈ label.toList, c ∈ rest ∧ c ≠ '|' := by
  unfold readInlineArrow? at h
  simp only at h
  split at h
  · cases h
    intro c hc
    rw [String.toList_ofList] at hc
    have hc := mem_of_mem_trim hc
    refine ⟨List.mem_of_mem_drop ((List.takeWhile_prefix _).subset hc), ?_⟩
    have hstop := List.mem_takeWhile_imp hc
    simp only [Bool.and_eq_true, bne_iff_ne, ne_eq] at hstop
    exact hstop.1.2
  · cases h

/-- What is behind an arrow is the end of the text, and its label is made of characters before that, none of them a pipe. -/
theorem readArrow?_spec {cur next : Cursor} {arrow : Arrow} {text? : Option String}
    (h : readArrow? cur = some (arrow, text?, next)) :
    next.rest <:+ cur.rest ∧ ∀ l ∈ text?, ∀ c ∈ l.toList, c ∈ cur.rest ∧ c ≠ '|' := by
  unfold readArrow? at h
  split at h
  · rename_i hinline
    cases h
    refine ⟨suffix_advance cur _, ?_⟩
    rintro l ⟨⟩
    exact readInlineArrow?_spec hinline
  · obtain ⟨n, -, heq⟩ := Option.map_eq_some_iff.1 h
    cases heq
    exact ⟨suffix_advance cur _, by simp⟩

/-- What a link is that is read, and that the text goes on behind it. -/
theorem readLink_spec {cur next : Cursor} {link : Link} (h : readLink cur = .ok (link, next))
    (hp : ∀ c ∈ cur.rest, p c) : LinkIsRead p link ∧ next.rest <:+ cur.rest := by
  unfold readLink at h
  split at h
  · cases h
  · rename_i arrow text? behind harrow
    obtain ⟨hbehind, htext⟩ := readArrow?_spec harrow
    split at h
    · rename_i passed rest hpipe
      have hrest : rest <:+ cur.rest := by
        have hskip := (suffix_skipBlanks behind).trans hbehind
        rw [hpipe] at hskip
        exact (List.suffix_cons _ _).trans hskip
      simp only at h
      split at h
      · cases h
        refine ⟨?_, (List.drop_suffix _ _).trans hrest⟩
        rintro l ⟨⟩ c hc
        rw [String.toList_ofList] at hc
        have hc := mem_of_mem_trim hc
        refine ⟨hp c (hrest.subset ((List.takeWhile_prefix _).subset hc)), ?_⟩
        simpa using List.mem_takeWhile_imp hc
      · cases h
    · cases h
      exact ⟨fun l hl c hc => ⟨hp c (htext l hl c hc).1, (htext l hl c hc).2⟩, hbehind⟩

/-- A reference in front of what has been read, read itself. -/
theorem IsRead.addRef {s : Statement} (h : s.IsRead p) {ref : NodeRef} (href : RefIsRead p ref) (column : Nat) :
    (s.addRef ref column).IsRead p := by
  refine ⟨?_, h.links⟩
  rw [refs_addRef]
  exact List.forall_mem_cons.2 ⟨href, h.refs⟩

/-- A reference and a link in front of what has been read, read themselves. -/
theorem IsRead.addLink {s : Statement} (h : s.IsRead p) {ref : NodeRef} {link : Link} (href : RefIsRead p ref)
    (hlink : LinkIsRead p link) : (s.addLink ref link).IsRead p := by
  refine ⟨?_, List.forall_mem_cons.2 ⟨hlink, h.links⟩⟩
  rw [refs_addLink]
  exact List.forall_mem_cons.2 ⟨href, h.refs⟩

/-- A statement that is read consists of references and links as they are read. -/
theorem isRead_of_readFrom {start : Cursor} {s : Statement} (h : readFrom start = .ok s) (hp : ∀ c ∈ start.rest, p c) :
    s.IsRead p := by
  fun_induction readFrom start generalizing s with
  | case1 start e href => cases h
  | case2 start ref cur href hnext =>
    cases h
    exact ⟨List.forall_mem_cons.2 ⟨(readRef_spec href hp).1, by simp⟩, by simp [links]⟩
  | case3 start ref cur href rest hnext ih =>
    obtain ⟨hread, hcur⟩ := readRef_spec href hp
    have hgo := (suffix_advance cur.skipBlanks 1).trans ((suffix_skipBlanks cur).trans hcur)
    obtain ⟨s', hs, rfl⟩ := exists_of_map_eq_ok h
    exact (ih hs fun c hc => hp c (hgo.subset hc)).addRef hread _
  | case4 start ref cur href e hlink => cases h
  | case5 start ref cur href link next hlink hnil hamp ih =>
    obtain ⟨hread, hcur⟩ := readRef_spec href hp
    have hskip := (suffix_skipBlanks cur).trans hcur
    obtain ⟨hlinked, hnext⟩ := readLink_spec hlink fun c hc => hp c (hskip.subset hc)
    obtain ⟨s', hs, rfl⟩ := exists_of_map_eq_ok h
    exact (ih hs fun c hc => hp c ((hnext.trans hskip).subset hc)).addLink hread hlinked

end Statement

/-! ## Lines -/

namespace Line

/-- What is behind the first word is part of the line. -/
theorem subset_afterFirstWord (s : List Char) : afterFirstWord s ⊆ s :=
  List.Subset.trans (trim_infix_self _).subset <| List.Subset.trans (dropEndWhile_prefix_self _ _).subset <|
    List.Subset.trans (trim_infix_self _).subset (List.drop_subset _ _)

/-- What a line is by its words is taken from the line. -/
theorem subset_of_ofFirstWord {word : String} {rest text s : List Char}
    (h : ofFirstWord word rest text = .groupOpen s ∨ ofFirstWord word rest text = .statement s) : s ⊆ rest ∨ s ⊆ text := by
  unfold ofFirstWord at h
  split at h
  · simp at h
  · split at h
    · simp only [groupOpen.injEq, reduceCtorEq, or_false] at h
      exact Or.inl (h ▸ List.Subset.refl _)
    · split at h
      · simp at h
      · split at h
        · simp at h
        · split at h
          · simp at h
          · simp only [reduceCtorEq, statement.injEq, false_or] at h
            exact Or.inr (h ▸ (dropEndWhile_prefix_self _ _).subset)

/-- The title of a group and the text of a statement are taken from the line. -/
theorem subset_of_classify {raw s : List Char} (h : classify raw = .groupOpen s ∨ classify raw = .statement s) :
    s ⊆ raw := by
  have htrim : trim raw ⊆ raw := (trim_infix_self raw).subset
  unfold classify at h
  simp only at h
  split at h
  · simp at h
  · split at h
    · simp at h
    · split at h
      · simp at h
      · rcases subset_of_ofFirstWord h with hs | hs
        · exact List.Subset.trans hs (List.Subset.trans (subset_afterFirstWord _) htrim)
        · exact List.Subset.trans hs htrim

end Line

/-- The lines of the body of a text are lines of the text. -/
theorem mem_lines_of_body {text : List Char} {line : NumberedLine} (h : line ∈ (Body.ofText text).lines) :
    line.text ∈ lines text := by
  obtain ⟨i, hi, -⟩ := mem_numberedLines_iff.1 ((Body.numbered_ofText text).1 line h)
  exact List.mem_of_getElem? hi

/-! ## Documents -/

namespace Document

/-- A node as it is read, in a document with groups of the given ids. -/
structure NodeIsRead (p : Char → Prop) (groupIds : List String) (n : Node) : Prop where
  id_word : IsWord n.id
  label : ∀ d ∈ n.details?, IsLabel p d.label
  shape : ∀ d ∈ n.details?, d.shape.normalized = d.shape
  group : ∀ d ∈ n.details?, ∀ g ∈ d.group?, g ∈ groupIds

/-- The ids of the groups, in order. -/
def groupIds (doc : Document) : List String := doc.groups.map (·.id)

/-- A document that was read from a text whose characters satisfy `p`. -/
structure WellFormed (p : Char → Prop) (doc : Document) : Prop where
  nodes_nodup : doc.nodeIds.Nodup
  node : ∀ n ∈ doc.nodes, NodeIsRead p doc.groupIds n
  edge_ends : ∀ e ∈ doc.edges, e.source ∈ doc.nodeIds ∧ e.target ∈ doc.nodeIds
  edge_label : ∀ e ∈ doc.edges, ∀ l ∈ e.label?, IsLabel (fun c => p c ∧ c ≠ '|') l
  group_label : ∀ g ∈ doc.groups, IsLabel p g.label
  group_id : ∀ g ∈ doc.groups, Label.IsDecoded g.id.toList

/-- A node that is read for some groups is read for more. -/
theorem NodeIsRead.mono {ids ids' : List String} {n : Node} (h : NodeIsRead p ids n) (hsub : ids ⊆ ids') :
    NodeIsRead p ids' n :=
  ⟨h.id_word, h.label, h.shape, fun d hd g hg => hsub (h.group d hd g hg)⟩

/-- What a reference says of its node. -/
theorem nodeIsRead_of_ref (hp : HoldsOfDecoded p) {ids : List String} {group? : Option String} {ref : NodeRef}
    (href : Statement.RefIsRead p ref) (hgroup : ∀ g ∈ group?, g ∈ ids) (line : Nat) :
    NodeIsRead p ids ⟨ref.id, line, detailsOf? group? ref⟩ := by
  refine ⟨href.id_word, fun d hd => ?_, fun d hd => ?_, fun d hd => ?_⟩
  all_goals
    obtain ⟨span, hspan, rfl⟩ := Option.map_eq_some_iff.1 hd
  · exact isLabel_decode hp (href.label span hspan)
  · exact href.shape span hspan
  · exact hgroup

/-- The ids of the nodes after one more reference. -/
theorem map_id_noteRef (group? : Option String) (line : Nat) (nodes : List Node) (ref : NodeRef) :
    (noteRef group? line nodes ref).map (·.id) =
      if nodes.any (·.id == ref.id) then nodes.map (·.id) else nodes.map (·.id) ++ [ref.id] := by
  rw [noteRef]
  split
  · rw [List.map_map]
    apply List.map_congr_left
    intro n _
    simp only [Function.comp_apply]
    split <;> rfl
  · rw [List.map_append]
    rfl

/-- A reference adds its id, if it is not there yet. -/
theorem mem_ids_noteRef (group? : Option String) (line : Nat) (nodes : List Node) (ref : NodeRef) (id : String) :
    id ∈ (noteRef group? line nodes ref).map (·.id) ↔ id ∈ nodes.map (·.id) ∨ id = ref.id := by
  rw [map_id_noteRef]
  split
  · rename_i hany
    obtain ⟨m, hm, heq⟩ := List.any_eq_true.1 hany
    have hold : ref.id ∈ nodes.map (·.id) := List.mem_map.2 ⟨m, hm, beq_iff_eq.1 heq⟩
    refine ⟨Or.inl, ?_⟩
    rintro (h | rfl)
    · exact h
    · exact hold
  · rw [List.mem_append, List.mem_singleton]

/-- One more reference leaves the ids distinct and loses none. -/
theorem noteRef_ids {nodes : List Node} (h : (nodes.map (·.id)).Nodup) (group? : Option String) (line : Nat)
    (ref : NodeRef) :
    ((noteRef group? line nodes ref).map (·.id)).Nodup ∧
    nodes.map (·.id) ⊆ (noteRef group? line nodes ref).map (·.id) ∧
    ref.id ∈ (noteRef group? line nodes ref).map (·.id) := by
  rw [map_id_noteRef]
  split
  · rename_i hany
    obtain ⟨n, hn, hid⟩ := List.any_eq_true.1 hany
    exact ⟨h, List.Subset.refl _, List.mem_map.2 ⟨n, hn, by simpa using hid⟩⟩
  · rename_i hany
    have hnew : ref.id ∉ nodes.map (·.id) := by
      intro hmem
      obtain ⟨n, hn, hid⟩ := List.mem_map.1 hmem
      exact hany (List.any_eq_true.2 ⟨n, hn, by simpa using hid⟩)
    exact ⟨h.append (List.nodup_singleton _) (by simpa using hnew), List.subset_append_left _ _, by simp⟩

/-- One more reference leaves every node as it is read: a node that is known keeps its details if it has any, and takes those of
the reference otherwise. -/
theorem noteRef_isRead (hp : HoldsOfDecoded p) {ids : List String} {group? : Option String}
    (hgroup : ∀ g ∈ group?, g ∈ ids) {nodes : List Node} (h : ∀ n ∈ nodes, NodeIsRead p ids n) (line : Nat)
    {ref : NodeRef} (href : Statement.RefIsRead p ref) :
    ∀ n ∈ noteRef group? line nodes ref, NodeIsRead p ids n := by
  have hnew := nodeIsRead_of_ref hp href hgroup line
  intro n hn
  rw [noteRef] at hn
  split at hn
  · obtain ⟨m, hm, rfl⟩ := List.mem_map.1 hn
    split
    · cases hd : m.details? with
      | none => exact ⟨(h m hm).id_word, hnew.label, hnew.shape, hnew.group⟩
      | some d =>
        have hkeep : ({ m with details? := (some d).or (detailsOf? group? ref) } : Node) = m := by
          rw [Option.some_or, ← hd]
        rw [hkeep]
        exact h m hm
    · exact h m hm
  · rcases List.mem_append.1 hn with hn | hn
    · exact h n hn
    · rw [List.mem_singleton.1 hn]
      exact hnew

/-- The nodes after several more references. -/
theorem foldl_noteRef_spec (hp : HoldsOfDecoded p) {ids : List String} {group? : Option String}
    (hgroup : ∀ g ∈ group?, g ∈ ids) (line : Nat) {refs : List NodeRef} (hrefs : ∀ ref ∈ refs, Statement.RefIsRead p ref)
    {nodes : List Node} (hnodup : (nodes.map (·.id)).Nodup) (h : ∀ n ∈ nodes, NodeIsRead p ids n) :
    ((refs.foldl (noteRef group? line) nodes).map (·.id)).Nodup ∧
    (∀ n ∈ refs.foldl (noteRef group? line) nodes, NodeIsRead p ids n) ∧
    nodes.map (·.id) ⊆ (refs.foldl (noteRef group? line) nodes).map (·.id) ∧
    ∀ ref ∈ refs, ref.id ∈ (refs.foldl (noteRef group? line) nodes).map (·.id) := by
  induction refs generalizing nodes with
  | nil => exact ⟨hnodup, h, List.Subset.refl _, by simp⟩
  | cons ref refs ih =>
    rw [List.forall_mem_cons] at hrefs
    obtain ⟨hids, hsub, hmem⟩ := noteRef_ids hnodup group? line ref
    obtain ⟨h1, h2, h3, h4⟩ := ih hrefs.2 hids (noteRef_isRead hp hgroup h line hrefs.1)
    exact ⟨h1, h2, List.Subset.trans hsub h3, List.forall_mem_cons.2 ⟨h3 hmem, h4⟩⟩

/-- The nodes of both sides of a hop are nodes of the statement, and its link is one of its links. -/
theorem mem_of_mem_hops {s : Statement} {left right : NodeGroup} {link : Link} (h : (left, link, right) ∈ s.hops) :
    left.refs ⊆ s.refs ∧ link ∈ s.links ∧ right.refs ⊆ s.refs := by
  obtain ⟨hleft, hstep⟩ := List.of_mem_zip h
  have hsub : ∀ g ∈ s.groups, g.refs ⊆ s.refs := fun g hg ref href => List.mem_flatMap.2 ⟨g, hg, href⟩
  refine ⟨hsub left hleft, List.mem_map.2 ⟨_, hstep, rfl⟩, hsub right ?_⟩
  exact List.mem_cons_of_mem _ (List.mem_map.2 ⟨_, hstep, rfl⟩)

/-- One more statement leaves a document well-formed. -/
theorem WellFormed.addStatement (hp : HoldsOfDecoded p) {doc : Document} (h : doc.WellFormed p) {group? : Option String}
    (hgroup : ∀ g ∈ group?, g ∈ doc.groupIds) (line : Nat) {s : Statement} (hs : s.IsRead p) :
    (doc.addStatement group? line s).WellFormed p := by
  obtain ⟨hnodup, hnodes, hkeep, hrefs⟩ := foldl_noteRef_spec hp hgroup line hs.refs h.nodes_nodup h.node
  refine ⟨hnodup, hnodes, ?_, ?_, h.group_label, h.group_id⟩
  · intro e he
    rcases List.mem_append.1 he with he | he
    · exact ⟨hkeep (h.edge_ends e he).1, hkeep (h.edge_ends e he).2⟩
    · obtain ⟨⟨left, link, right⟩, hhop, he⟩ := List.mem_flatMap.1 he
      obtain ⟨hleft, -, hright⟩ := mem_of_mem_hops hhop
      obtain ⟨source, hsource, he⟩ := List.mem_flatMap.1 he
      obtain ⟨target, htarget, rfl⟩ := List.mem_map.1 he
      exact ⟨hrefs source (hleft hsource), hrefs target (hright htarget)⟩
  · intro e he
    rcases List.mem_append.1 he with he | he
    · exact h.edge_label e he
    · obtain ⟨⟨left, link, right⟩, hhop, he⟩ := List.mem_flatMap.1 he
      obtain ⟨source, -, he⟩ := List.mem_flatMap.1 he
      obtain ⟨target, -, rfl⟩ := List.mem_map.1 he
      intro l hl
      obtain ⟨raw, hraw, rfl⟩ := Option.map_eq_some_iff.1 hl
      exact isLabel_decode ⟨⟨hp.quote, by decide⟩, hp.newline, by decide⟩
        (hs.links link (mem_of_mem_hops hhop).2.1 raw hraw)

/-- Dropping quotes adds nothing. -/
theorem subset_dropQuotes (s : List Char) : dropQuotes s ⊆ s :=
  List.Subset.trans (dropEndWhile_prefix_self _ _).subset (List.dropWhile_suffix _).subset

/-- A title without quotes is both the id and the label of its group. -/
theorem groupOfTitle_plain (hp : HoldsOfDecoded p) {title : List Char} (htitle : ∀ c ∈ title, p c) :
    IsLabel p (groupOfTitle.plain title).2 ∧ Label.IsDecoded (groupOfTitle.plain title).1.toList := by
  have h := isLabel_decodeChars hp fun c hc => htitle c (subset_dropQuotes title hc)
  exact ⟨h, h.decoded⟩

/-- The label of a group is a label as it is read, and so is its id, be it a word or the whole title. -/
theorem groupOfTitle_spec (hp : HoldsOfDecoded p) {title : List Char} (htitle : ∀ c ∈ title, p c) :
    IsLabel p (groupOfTitle title).2 ∧ Label.IsDecoded (groupOfTitle title).1.toList := by
  unfold groupOfTitle
  simp only
  split
  · rename_i rest hrest
    split
    · rename_i hbracket
      have hsub : dropQuotes (trim rest.dropLast) ⊆ title := by
        have h1 : rest ⊆ title := by
          have h2 := (List.dropWhile_suffix (l := title.drop (title.takeWhile isIdChar).length) isBlank).subset
          rw [← trimStart, hrest] at h2
          exact List.Subset.trans (List.subset_cons_self _ _) (List.Subset.trans h2 (List.drop_subset _ _))
        exact List.Subset.trans (subset_dropQuotes _) <| List.Subset.trans (trim_infix_self _).subset <|
          List.Subset.trans (List.dropLast_prefix _).subset h1
      refine ⟨isLabel_decodeChars hp fun c hc => htitle c (hsub hc), IsWord.isDecoded ⟨?_, ?_⟩⟩
      · intro hnil
        simp only [String.ofList_eq_empty_iff] at hnil
        simp [hnil] at hbracket
      · intro c hc
        rw [String.toList_ofList] at hc
        exact List.mem_takeWhile_imp hc
    · exact groupOfTitle_plain hp htitle
  · exact groupOfTitle_plain hp htitle

/-- A reading under way: what has been read is well-formed, and the open groups are among its groups. -/
structure Reading.WellFormed (p : Char → Prop) (r : Reading) : Prop where
  document : r.document.WellFormed p
  openGroups : r.openGroups ⊆ r.document.groupIds

/-- Before anything is read the reading is well formed. -/
theorem Reading.wellFormed_empty : ({} : Reading).WellFormed p :=
  ⟨⟨List.nodup_nil, by simp, by simp, by simp, by simp, by simp⟩, by simp⟩

/-- A group that is opened leaves a document well-formed. -/
theorem WellFormed.addGroup {doc : Document} (h : doc.WellFormed p) {g : Group} (hlabel : IsLabel p g.label)
    (hid : Label.IsDecoded g.id.toList) : WellFormed p { doc with groups := doc.groups ++ [g] } := by
  refine ⟨h.nodes_nodup, ?_, h.edge_ends, h.edge_label, ?_, ?_⟩
  · intro n hn
    exact (h.node n hn).mono (by simp [groupIds])
  · simpa [or_imp, forall_and] using And.intro h.group_label hlabel
  · simpa [or_imp, forall_and] using And.intro h.group_id hid

/-- Every line leaves what has been read well-formed. -/
theorem Reading.WellFormed.step (hp : HoldsOfDecoded p) {r : Reading} (h : r.WellFormed p) {line : NumberedLine}
    (hline : ∀ c ∈ line.text, p c) : (r.step line).WellFormed p := by
  unfold Reading.step
  split
  · split
    · exact h
    · exact ⟨⟨h.document.nodes_nodup, h.document.node, h.document.edge_ends, h.document.edge_label,
        h.document.group_label, h.document.group_id⟩, h.openGroups⟩
  · rename_i title hclass
    have htitle := Line.subset_of_classify (Or.inl hclass)
    obtain ⟨hlabel, hid⟩ := groupOfTitle_spec hp fun c hc => hline c (htitle hc)
    refine ⟨h.document.addGroup hlabel hid, ?_⟩
    have hsub : r.openGroups ⊆ r.document.groupIds ++ [(groupOfTitle title).1] :=
      List.Subset.trans h.openGroups (List.subset_append_left _ _)
    simpa [groupIds] using hsub
  · exact ⟨h.document, List.Subset.trans (List.tail_subset _) h.openGroups⟩
  · rename_i text hclass
    have htext := Line.subset_of_classify (Or.inr hclass)
    split
    · exact ⟨h.document, h.openGroups⟩
    · rename_i statement hparse
      have hread := Statement.isRead_of_readFrom hparse fun c hc => hline c (htext hc)
      exact ⟨h.document.addStatement hp (fun g hg => h.openGroups (List.mem_of_mem_head? hg)) _ hread, h.openGroups⟩
  all_goals exact h

/-- What a text reads as is well-formed. -/
theorem wellFormed_parse (hp : HoldsOfDecoded p) {text : String} (h : ∀ l ∈ lines text.toList, ∀ c ∈ l, p c) :
    (parse text).WellFormed p := by
  have hfold : ∀ (ls : List NumberedLine) (r : Reading), r.WellFormed p → (∀ l ∈ ls, ∀ c ∈ l.text, p c) →
      (ls.foldl Reading.step r).WellFormed p := by
    intro ls
    induction ls with
    | nil => intro r hr _; exact hr
    | cons l ls ih =>
      intro r hr hls
      rw [List.forall_mem_cons] at hls
      exact ih _ (hr.step hp hls.1) hls.2
  exact (hfold _ _ Reading.wellFormed_empty fun l hl => h _ (mem_lines_of_body hl)).document

/-- Every text reads as a well-formed document. -/
theorem wellFormed_parse_any (text : String) : (parse text).WellFormed fun _ => True :=
  wellFormed_parse ⟨trivial, trivial⟩ fun _ _ _ _ => trivial

/-- Without lone carriage returns no label holds one. -/
theorem wellFormed_parse_of_pairedReturns {text : String} (h : HasPairedReturns text.toList) :
    (parse text).WellFormed (· ≠ '\r') := by
  refine wellFormed_parse ⟨by decide, by decide⟩ fun l hl c hc => ?_
  rintro rfl
  exact return_notMem_of_mem_lines h hl hc

/-! ## Looking up nodes -/

/-- A node is found under an id exactly if the document has this id. -/
theorem node?_isSome (doc : Document) (id : String) : (doc.node? id).isSome = doc.nodeIds.contains id := by
  rw [Bool.eq_iff_iff, node?, List.find?_isSome, List.contains_iff_mem, nodeIds, List.mem_map]
  simp

/-- Where ids are distinct a node is found by its id. -/
theorem node?_of_mem {doc : Document} (h : doc.nodeIds.Nodup) {n : Node} (hn : n ∈ doc.nodes) :
    doc.node? n.id = some n := by
  cases hfound : doc.node? n.id with
  | none =>
    have hnone := List.find?_eq_none.1 hfound n hn
    simp at hnone
  | some m =>
    have hid : m.id = n.id := by simpa using List.find?_some hfound
    exact congrArg some (List.inj_on_of_nodup_map h (List.mem_of_find?_eq_some hfound) hn hid)

/-- A node that is found is one of the document and has the id. -/
theorem mem_of_node? {doc : Document} {id : String} {n : Node} (h : doc.node? id = some n) :
    n ∈ doc.nodes ∧ n.id = id :=
  ⟨List.mem_of_find?_eq_some h, by simpa using List.find?_some h⟩

/-- A document lists the groups that its nodes stand in. -/
theorem WellFormed.group?_listed {doc : Document} (h : doc.WellFormed p) {n : Node} (hn : n ∈ doc.nodes) :
    ∀ g ∈ n.group?, g ∈ doc.groupIds := by
  intro g hg
  obtain ⟨d, hd, hdg⟩ := Option.bind_eq_some_iff.1 hg
  exact (h.node n hn).group d hd g hdg

/-- The label of a node of a well-formed document has been decoded. -/
theorem WellFormed.label?_isLabel {doc : Document} (h : doc.WellFormed p) {n : Node} (hn : n ∈ doc.nodes) :
    ∀ l ∈ n.label?, IsLabel p l := by
  intro l hl
  obtain ⟨d, hd, rfl⟩ := Option.map_eq_some_iff.1 hl
  exact (h.node n hn).label d hd

/-- The shapes in a well-formed document are normalized. -/
theorem WellFormed.shape_normalized {doc : Document} (h : doc.WellFormed p) {n : Node} (hn : n ∈ doc.nodes) :
    n.shape.normalized = n.shape := by
  rw [Node.shape]
  cases hd : n.details? with
  | none => rfl
  | some d => exact (h.node n hn).shape d hd

end Document

end Whiteboard
