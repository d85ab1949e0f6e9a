import Whiteboard.Proofs.Diagram.Scan
import Mathlib.Data.List.Chain

/-!
# Scanning in rounds

A scan goes round by round, and every round finds one reference and what joins the next one to it. Main statement
(`Scan.scan_in_range`): whatever the text is, every round begins farther on in it than the one before, where a character begins,
until one ends the scan; no cut fails; and the three lists that come of a scan fit together and fit the text. There is one more
group than links, no group is empty, each reference has its id at its column, and the text can be cut before and behind each `&`
that has been kept, which are those outside labels.

The lists grow on their own, so what ties them together is what every round keeps (`Scan.State.IsSound`).
-/

namespace Whiteboard

open Text

/-! ## Places of a text -/

namespace Text

/-- A text has its bytes at a number of bytes if a character begins there, or the text ends. -/
def IsBoundary (text : List Char) (bytes : Nat) : Prop := String.Pos.Raw.IsValid (String.ofList text) ⟨bytes⟩

/-- The bytes of a text are those of its characters. -/
theorem size_eq_utf8ByteSize (s : List Char) : size s = (String.ofList s).utf8ByteSize := by
  induction s with
  | nil => rfl
  | cons c cs ih =>
    have hsplit : String.ofList (c :: cs) = String.ofList [c] ++ String.ofList cs := by
      rw [← String.ofList_append]
      rfl
    rw [size_cons, ih, hsplit, String.utf8ByteSize_append]
    simp

/-- A boundary is the end of a part of the text. -/
theorem isBoundary_iff {text : List Char} {bytes : Nat} :
    IsBoundary text bytes ↔ ∃ before behind, text = before ++ behind ∧ bytes = size before := by
  rw [IsBoundary, String.Pos.Raw.isValid_ofList]
  constructor
  · rintro ⟨i, hi⟩
    refine ⟨text.take i, text.drop i, (List.take_append_drop i text).symm, ?_⟩
    rw [size_eq_utf8ByteSize]
    exact hi
  · rintro ⟨before, behind, rfl, rfl⟩
    refine ⟨before.length, ?_⟩
    rw [List.take_left, size_eq_utf8ByteSize]

/-- The text can be cut around a character at a number of bytes: the character stands between the two parts. -/
def IsCutAt (c : Char) (text : List Char) (bytes : Nat) : Prop :=
  ∃ before behind, cut? text bytes = some (before, c :: behind) ∧ cut? text (bytes + c.utf8Size) = some (before ++ [c], behind)

/-- A column at which a character stands. -/
theorem standsAt_singleton_iff {c : Char} {text : List Char} {column : Nat} :
    StandsAt [c] text column ↔ ∃ i, text[i]? = some c ∧ column = 1 + i := by
  constructor
  · rintro ⟨before, after, rfl, rfl⟩
    exact ⟨before.length, by simp, Nat.add_comm _ _⟩
  · rintro ⟨i, hi, rfl⟩
    obtain ⟨hlt, rfl⟩ := List.getElem?_eq_some_iff.1 hi
    refine ⟨text.take i, text.drop (i + 1), ?_, ?_⟩
    · simp
    · rw [List.length_take_of_le (Nat.le_of_lt hlt), Nat.add_comm]

end Text

namespace Cursor

variable {cur : Cursor} {text : List Char}

/-- A place in the text is at a boundary. -/
theorem IsIn.isBoundary (h : cur.IsIn text) : IsBoundary text (cur.place text) := by
  obtain ⟨before, htext, hpassed⟩ := h
  exact isBoundary_iff.2 ⟨before, cur.rest, htext, place_of_append htext hpassed⟩

/-- Every boundary is a place in the text. -/
theorem exists_place {bytes : Nat} (h : IsBoundary text bytes) : ∃ cur : Cursor, cur.IsIn text ∧ cur.place text = bytes := by
  obtain ⟨before, behind, htext, rfl⟩ := isBoundary_iff.1 h
  exact ⟨⟨before.length, behind⟩, ⟨before, htext, rfl⟩, place_of_append htext rfl⟩

/-- The text can be cut around the character that comes next. -/
theorem IsIn.isCutAt (h : cur.IsIn text) {c : Char} {behind : List Char} (hrest : cur.rest = c :: behind) :
    IsCutAt c text (cur.place text) := by
  obtain ⟨before, htext, hpassed⟩ := h
  rw [place_of_append htext hpassed]
  rw [hrest] at htext
  have hbehind := cut?_append (before ++ [c]) behind
  rw [List.append_assoc, size_append] at hbehind
  exact ⟨before, behind, by rw [htext]; exact cut?_append _ _, by rw [htext]; exact hbehind⟩

end Cursor

namespace Scan

variable {text : List Char}

/-! ## What every round keeps -/

/-- The references in the groups, in order. -/
def Parts.refs (parts : Parts) : List NodeRef := parts.groups.flatten

/-- The references that have been found, in order. -/
def State.refs (st : State) : List NodeRef := st.parts.refs ++ st.group

/-- What holds of a scan under way: the next character begins at its place; as many groups as links have been closed, and
none of them is empty; an `&` has been found for every reference but the first of each closed group; ids are at their columns,
and the text can be cut around the `&`s. -/
structure State.IsSound (text : List Char) (st : State) : Prop where
  place : IsBoundary text st.place
  groups : st.parts.groups.length = st.parts.links.length
  inhabited : ∀ group ∈ st.parts.groups, group ≠ []
  ampersands : st.parts.ampersands.length + st.parts.groups.length = st.refs.length
  refs : ∀ ref ∈ st.refs, StandsAt ref.id.toList text ref.column
  cuts : ∀ place ∈ st.parts.ampersands, IsCutAt '&' text place

/-- The lists that come of a scan fit together and fit the text: there is one more group than links, no group is empty, an `&`
has been found for every reference but the first of each group; ids are at their columns, and the text can be cut around the
`&`s. -/
structure Parts.IsInRange (text : List Char) (parts : Parts) : Prop where
  groups : parts.groups.length = parts.links.length + 1
  inhabited : ∀ group ∈ parts.groups, group ≠ []
  ampersands : parts.ampersands.length + parts.groups.length = parts.refs.length
  refs : ∀ ref ∈ parts.refs, StandsAt ref.id.toList text ref.column
  cuts : ∀ place ∈ parts.ampersands, IsCutAt '&' text place

/-- What a sound round comes to. -/
inductive Comes (text : List Char) (st : State) : Except Failure Turn → Prop
  | fault (e : StatementError) : Comes text st (.error (.fault e))
  | ends {parts : Parts} (hparts : parts.IsInRange text) (hcount : parts.refs.length = st.refs.length + 1) :
      Comes text st (.ok (.ends parts))
  | goes {st' : State} (hst' : st'.IsSound text) (hplace : st.place < st'.place)
      (hcount : st'.refs.length = st.refs.length + 1) : Comes text st (.ok (.goes st'))

/-- A scan is sound at its beginning. -/
theorem isSound_start (text : List Char) : State.IsSound text {} where
  place := (Cursor.isIn_start text).isBoundary
  groups := rfl
  inhabited := nofun
  ampersands := rfl
  refs := nofun
  cuts := nofun

section Steps

variable {place : Nat} {group : List NodeRef} {parts : Parts} {ref : NodeRef}

/-- The references of lists with the group that is being filled and one more reference. -/
theorem refs_close (parts : Parts) (group : List NodeRef) (ref : NodeRef) :
    Parts.refs { parts with groups := parts.groups ++ [group ++ [ref]] } = parts.refs ++ group ++ [ref] := by
  simp [Parts.refs]

/-- One more reference is at its column too. -/
theorem State.IsSound.standsAt_concat (h : State.IsSound text ⟨place, group, parts⟩)
    (href : StandsAt ref.id.toList text ref.column) :
    ∀ found ∈ parts.refs ++ group ++ [ref], StandsAt found.id.toList text found.column :=
  List.forall_mem_append.2 ⟨h.refs, List.forall_mem_singleton.2 href⟩

/-- There is an `&` for every reference but the first of each closed group. -/
theorem State.IsSound.length_concat (h : State.IsSound text ⟨place, group, parts⟩) (ref : NodeRef) :
    (parts.refs ++ group ++ [ref]).length = parts.ampersands.length + parts.groups.length + 1 := by
  have hampersands : parts.ampersands.length + parts.groups.length = (parts.refs ++ group).length := h.ampersands
  rw [List.length_append, ← hampersands]
  rfl

/-- When the group that is being filled is closed with one more reference, the lists fit. -/
theorem State.IsSound.close (h : State.IsSound text ⟨place, group, parts⟩) (href : StandsAt ref.id.toList text ref.column) :
    Parts.IsInRange text { parts with groups := parts.groups ++ [group ++ [ref]] } where
  groups := by
    rw [List.length_append, h.groups]
    rfl
  inhabited := List.forall_mem_append.2 ⟨h.inhabited, List.forall_mem_singleton.2 (by simp)⟩
  ampersands := by
    rw [refs_close, h.length_concat, List.length_append]
    rfl
  refs := by
    rw [refs_close]
    exact h.standsAt_concat href
  cuts := h.cuts

/-- When an `&` comes next, the group is filled further. -/
theorem State.IsSound.fill (h : State.IsSound text ⟨place, group, parts⟩) (href : StandsAt ref.id.toList text ref.column)
    {joint next : Nat} (hjoint : IsCutAt '&' text joint) (hnext : IsBoundary text next) :
    State.IsSound text ⟨next, group ++ [ref], { parts with ampersands := parts.ampersands ++ [joint] }⟩ where
  place := hnext
  groups := h.groups
  inhabited := h.inhabited
  ampersands := by
    change (parts.ampersands ++ [joint]).length + parts.groups.length = (parts.refs ++ (group ++ [ref])).length
    rw [← List.append_assoc, h.length_concat, List.length_append]
    exact Nat.add_right_comm _ _ _
  refs := by
    change ∀ found ∈ parts.refs ++ (group ++ [ref]), _
    rw [← List.append_assoc]
    exact h.standsAt_concat href
  cuts := List.forall_mem_append.2 ⟨h.cuts, List.forall_mem_singleton.2 hjoint⟩

/-- When a link comes next, the lists that fit are sound with it. -/
theorem Parts.IsInRange.link (h : parts.IsInRange text) (link : Link) {next : Nat} (hnext : IsBoundary text next) :
    State.IsSound text ⟨next, [], { parts with links := parts.links ++ [link] }⟩ where
  place := hnext
  groups := by
    rw [h.groups, List.length_append]
    rfl
  inhabited := h.inhabited
  ampersands := by
    rw [State.refs, List.append_nil]
    exact h.ampersands
  refs := by
    rw [State.refs, List.append_nil]
    exact h.refs
  cuts := h.cuts

end Steps

/-- Every round of a sound scan leaves it sound and farther on, ends it with lists that fit, or finds that the text is no
statement. -/
theorem State.IsSound.comes {st : State} (h : st.IsSound text) : Comes text st (round text st) := by
  obtain ⟨place, group, parts⟩ := st
  obtain ⟨cur, hcur, rfl⟩ := Cursor.exists_place h.place
  cases href : Statement.readRef cur with
  | error e =>
    rw [round_of_error group parts hcur href]
    exact .fault e
  | ok found =>
    obtain ⟨ref, behind⟩ := found
    obtain ⟨hid, hbehind⟩ := Statement.standsAt_of_readRef href hcur
    have hcount : (parts.refs ++ group ++ [ref]).length = (parts.refs ++ group).length + 1 := List.length_append
    cases hrest : behind.skipBlanks.rest with
    | nil =>
      rw [round_of_nil group parts hcur href hrest]
      exact .ends (h.close hid) ((congrArg List.length (refs_close parts group ref)).trans hcount)
    | cons c rest =>
      have hround := round_of_cons group parts hcur href hrest
      by_cases hc : c = '&'
      · subst hc
        rw [if_pos rfl] at hround
        have hplace := (lt_of_round hround).1
        have hnext := (hbehind.skipBlanks.advance (n := 1) (by simp [hrest])).isBoundary
        rw [hround]
        refine .goes (h.fill hid (hbehind.skipBlanks.isCutAt hrest) hnext) hplace ?_
        rw [State.refs, ← List.append_assoc]
        exact hcount
      · rw [if_neg hc] at hround
        cases hlink : Statement.readLink behind.skipBlanks with
        | error e =>
          rw [hround, hlink]
          exact .fault e
        | ok joint =>
          obtain ⟨link, next⟩ := joint
          rw [hlink] at hround
          have hplace := (lt_of_round hround).1
          have hnext := (Statement.isIn_of_readLink hlink hbehind.skipBlanks).isBoundary
          rw [hround]
          refine .goes ((h.close hid).link link hnext) hplace ?_
          rw [State.refs, List.append_nil]
          exact (congrArg List.length (refs_close parts group ref)).trans hcount

/-! ## From round to round -/

/-- The states at which the rounds of a scan begin: each is what the round before it goes on with, sound, and farther on in the
text; there are as many as references are found; and the scan comes to what the last round comes to, which ends it or finds
that the text is no statement. -/
structure Rounds (text : List Char) (start : State) (states : List State) : Prop where
  begins : states.head? = some start
  leads : states.IsChain fun st next => round text st = .ok (.goes next)
  ends : ∃ last ∈ states.getLast?, (∃ parts, round text last = .ok (.ends parts) ∧ run text start = .ok parts) ∨
    ∃ e, round text last = .error (.fault e) ∧ run text start = .error (.fault e)
  advances : states.Pairwise fun st next => st.place < next.place
  sound : ∀ st ∈ states, st.IsSound text
  found : ∀ parts, run text start = .ok parts →
    parts.IsInRange text ∧ parts.refs.length = start.refs.length + states.length

/-- A round that is not followed by another is the only one. -/
theorem rounds_singleton {start : State} (h : start.IsSound text)
    (hends : (∃ parts, round text start = .ok (.ends parts) ∧ run text start = .ok parts) ∨
      ∃ e, round text start = .error (.fault e) ∧ run text start = .error (.fault e)) : Rounds text start [start] := by
  refine ⟨rfl, .singleton _, ⟨start, rfl, hends⟩, List.pairwise_singleton _ _, List.forall_mem_singleton.2 h, ?_⟩
  intro parts hparts
  rcases hends with ⟨parts', hround, hrun⟩ | ⟨e, -, hrun⟩
  · rw [hrun] at hparts
    cases hparts
    have hcomes := h.comes
    rw [hround] at hcomes
    cases hcomes with
    | ends hfits hcount => exact ⟨hfits, hcount⟩
  · rw [hrun] at hparts
    cases hparts

/-- A round goes before the rounds that it leads to. -/
theorem Rounds.cons {start next : State} {states : List State} (h : Rounds text next states) (hstart : start.IsSound text)
    (hplace : start.place < next.place) (hcount : next.refs.length = start.refs.length + 1)
    (hnext : round text start = .ok (.goes next)) : Rounds text start (start :: states) := by
  obtain ⟨rest, rfl⟩ : ∃ rest, states = next :: rest := by
    cases states with
    | nil => cases h.begins
    | cons first rest => exact ⟨rest, by rw [Option.some.inj h.begins]⟩
  have hrun := run_of_goes hnext
  refine ⟨rfl, .cons_cons hnext h.leads, ?_, ?_, List.forall_mem_cons.2 ⟨hstart, h.sound⟩, ?_⟩
  · rw [List.getLast?_cons_cons, hrun]
    exact h.ends
  · refine List.pairwise_cons.2 ⟨fun st hst => ?_, h.advances⟩
    rcases List.mem_cons.1 hst with rfl | hst
    · exact hplace
    · exact Nat.lt_trans hplace (List.rel_of_pairwise_cons h.advances hst)
  · rw [hrun]
    intro parts hparts
    obtain ⟨hfits, hfound⟩ := h.found parts hparts
    refine ⟨hfits, ?_⟩
    rw [hfound, hcount]
    simp only [List.length_cons]
    omega

/-- Every sound scan goes in rounds. -/
theorem exists_rounds {start : State} (h : start.IsSound text) : ∃ states, Rounds text start states := by
  fun_induction run text start with
  | case1 start e hround =>
    have hcomes := h.comes
    rw [hround] at hcomes
    cases hcomes with
    | fault e => exact ⟨_, rounds_singleton h (Or.inr ⟨e, hround, run_of_error hround⟩)⟩
  | case2 start parts hround => exact ⟨_, rounds_singleton h (Or.inl ⟨parts, hround, run_of_ends hround⟩)⟩
  | case3 start next hround ih =>
    have hcomes := h.comes
    rw [hround] at hcomes
    cases hcomes with
    | goes hnext hplace hcount =>
      obtain ⟨states, hstates⟩ := ih hnext
      exact ⟨_, hstates.cons h hplace hcount hround⟩

/-! ## Taking by index -/

/-- Behind some groups, every link finds a group at its index and one behind it. -/
theorem mapM_hops (before : List (List NodeRef)) (first : List NodeRef) (rest : List (List NodeRef)) (links : List Link)
    (h : rest.length = links.length) :
    ((links.zipIdx before.length).mapM fun (link, i) => do
      let left ← (before ++ first :: rest)[i]?
      let right ← (before ++ first :: rest)[i + 1]?
      return (left, link, right)) = some ((first :: rest).zip (links.zip rest)) := by
  induction links generalizing before first rest with
  | nil => rfl
  | cons link links ih =>
    obtain ⟨second, rest, rfl⟩ := List.exists_cons_of_length_eq_add_one h
    have hrest := ih (before ++ [first]) second rest (Nat.succ.inj h)
    rw [List.append_assoc, List.singleton_append, List.length_append, List.length_singleton] at hrest
    have hleft : (before ++ first :: second :: rest)[before.length]? = some first := by simp
    have hright : (before ++ first :: second :: rest)[before.length + 1]? = some second := by simp
    rw [List.zipIdx_cons, List.mapM_cons, hrest]
    simp only [hleft, hright]
    rfl

/-- Where there is one more group than links, every link finds a group at its index and one behind it. -/
theorem hops?_eq {parts : Parts} (h : parts.groups.length = parts.links.length + 1) :
    parts.hops? = some (parts.groups.zip (parts.links.zip parts.groups.tail)) := by
  obtain ⟨groups, links, ampersands⟩ := parts
  obtain ⟨first, rest, rfl⟩ := List.exists_cons_of_length_eq_add_one h
  exact mapM_hops [] first rest links (Nat.succ.inj h)

/-! ## The parts of a statement -/

/-- The lists of a statement. -/
def Parts.of (text : List Char) (s : Statement) : Parts where
  groups := s.groups.map (·.refs)
  links := s.links
  ampersands := s.ampersands.map (offset text)

/-- A scan comes to the lists of the statement that the reader finds, and fails only where the reader finds none. -/
theorem scan_eq_parse (text : List Char) :
    scan text = ((Statement.parse text).map (Parts.of text)).mapError .fault := by
  have hclose : close text [] {} = Parts.of text := by
    funext s
    simp [close, Parts.of, Statement.groups]
  rw [scan_eq, hclose]

/-- The references in the lists of a statement are those of the statement. -/
theorem refs_of (text : List Char) (s : Statement) : (Parts.of text s).refs = s.refs := by
  rw [Parts.refs, Parts.of, Statement.refs, List.flatMap_def]

/-- Taken by index from the lists of a statement, the groups beside a link are those that the statement has there. -/
theorem hops?_of (text : List Char) (s : Statement) :
    (Parts.of text s).hops? = some (s.hops.map fun hop => (hop.1.refs, hop.2.1, hop.2.2.refs)) := by
  have hsteps : s.links.zip (s.steps.map (·.2.refs)) = s.steps.map fun step => (step.1, step.2.refs) := by
    rw [Statement.links, List.zip_map']
  have htail : (Parts.of text s).groups.tail = s.steps.map (·.2.refs) := by simp [Parts.of, Statement.groups]
  rw [hops?_eq (by simp [Parts.of, Statement.groups, Statement.links]), htail, Parts.of, hsteps, Statement.hops,
    List.zip_map]
  rfl

end Scan

namespace Statement

/-- How a statement lies in its text: the pieces that spell it make up the text; the ids of its references are the pieces that
are ids, each at the column that is kept of it; and the `&`s that are kept are those outside labels. -/
structure IsLaidOut (s : Statement) (text : List Char) (pieces : List Piece) : Prop where
  spelled : s.Spelled 1 pieces
  whole : Piece.text pieces = text
  ids : Piece.ids 1 pieces = s.refs.map fun ref => (ref.column, ref.id)
  ampersands : ∀ column, column ∈ s.ampersands ↔ StandsAt ['&'] text column ∧ ¬ Piece.IsInLabel 1 pieces column

/-- A statement lies in the text that it is read from. -/
theorem exists_isLaidOut {text : List Char} {s : Statement} (h : parse text = .ok s) : ∃ pieces, s.IsLaidOut text pieces := by
  obtain ⟨pieces, hspelled, htext⟩ := exists_spelled_of_readFrom h
  refine ⟨pieces, hspelled, htext, hspelled.columns_eq.1, fun column => ?_⟩
  rw [← hspelled.columns_eq.2, Piece.mem_ampersands_iff hspelled.isPlain, htext, standsAt_singleton_iff]
  rfl

end Statement

namespace Scan

/-- Whatever the text is, it is scanned in rounds, each of which begins farther on in it than the one before and where a
character begins, up to one that ends the scan; and no cut fails, so that the scan comes to what the reader comes to. The lists
that come of it fit: every link finds a group at its index and one behind it, no group is empty, an `&` is kept for every
reference but the first of each group, ids are at their columns, the text can be cut around every `&` that is kept, and these are
the `&`s outside labels. -/
theorem scan_in_range (text : List Char) :
    (∃ states, Rounds text {} states) ∧
    scan text = ((Statement.parse text).map (Parts.of text)).mapError .fault ∧
    ∀ parts, scan text = .ok parts → parts.IsInRange text ∧
      ∃ s pieces, Statement.parse text = .ok s ∧ s.IsLaidOut text pieces ∧ parts.refs = s.refs ∧
        parts.hops? = some (s.hops.map fun hop => (hop.1.refs, hop.2.1, hop.2.2.refs)) ∧
        ∀ place, place ∈ parts.ampersands ↔
          ∃ column, place = offset text column ∧ StandsAt ['&'] text column ∧ ¬ Piece.IsInLabel 1 pieces column := by
  obtain ⟨states, hstates⟩ := exists_rounds (isSound_start text)
  refine ⟨⟨states, hstates⟩, scan_eq_parse text, fun parts hparts => ⟨(hstates.found parts hparts).1, ?_⟩⟩
  rw [scan_eq_parse] at hparts
  obtain ⟨s, hs, rfl⟩ := exists_of_map_eq_ok (eq_ok_of_mapError_eq_ok hparts)
  obtain ⟨pieces, hpieces⟩ := Statement.exists_isLaidOut hs
  refine ⟨s, pieces, hs, hpieces, refs_of text s, hops?_of text s, fun place => ?_⟩
  rw [Parts.of, List.mem_map]
  constructor
  · rintro ⟨column, hcolumn, rfl⟩
    exact ⟨column, rfl, (hpieces.ampersands column).1 hcolumn⟩
  · rintro ⟨column, rfl, hcolumn⟩
    exact ⟨column, (hpieces.ampersands column).2 hcolumn, rfl⟩

/-- Only one of the `&`s of this text is kept: the others stand in the label of a node, between pipes and inside an arrow. -/
theorem scan_in_range_labelled :
    let text := "a[\"ä & y\"] & b -->|é & f| c -- t & u --> d".toList
    ∃ parts, scan text = .ok parts ∧ parts.ampersands = [12] ∧ parts.links.length = 2 ∧ parts.IsInRange text := by
  intro text
  have hscan : scan text = .ok
      ⟨[[⟨"a", some ⟨.rectangle, "ä & y", true⟩, 1⟩, ⟨"b", none, 14⟩], [⟨"c", none, 27⟩], [⟨"d", none, 42⟩]],
        [⟨.solid, some "é & f", 16⟩, ⟨.other, some "t & u", 29⟩], [12]⟩ := by
    decide +kernel
  exact ⟨_, hscan, rfl, rfl, ((scan_in_range text).2.2 _ hscan).1⟩

end Scan

end Whiteboard
