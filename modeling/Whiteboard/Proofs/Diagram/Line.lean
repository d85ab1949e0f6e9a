import Whiteboard.Diagram.Line
import Whiteboard.Proofs.Diagram.Label

/-!
# Written lines

What `Line.classify` makes of the lines that a description is written as. Every such line is an indentation and then a
text that begins with an identifier character (`IsWrittenLine`), so none of them is a fence or a comment. A line that
begins with a word of identifier characters is a statement unless that word is one of `lineKeywords`: the bracket that
follows the id of a node keeps it from being read as one.
-/

namespace Whiteboard

open Text

/-- A word of identifier characters. -/
def IsWord (id : String) : Prop := id ≠ "" ∧ ∀ c ∈ id.toList, isIdChar c = true

instance : DecidablePred IsWord := fun id =>
  decidable_of_iff (id ≠ "" ∧ id.toList.all isIdChar = true) (by rw [IsWord, List.all_eq_true])

/-- A word is not empty. -/
theorem IsWord.toList_ne_nil {id : String} (h : IsWord id) : id.toList ≠ [] := by
  intro hnil
  exact h.1 (String.toList_eq_nil_iff.1 hnil)

/-- The first words that make a line something else than a statement. -/
def lineKeywords : List String :=
  ["subgraph", "direction", headerKeyword, graphKeyword] ++ otherDiagramKinds ++ directiveKeywords

/-- The ranges of identifier characters. -/
theorem toNat_of_isIdChar {c : Char} (h : isIdChar c = true) :
    48 ≤ c.toNat ∧ c.toNat ≤ 57 ∨ 65 ≤ c.toNat ∧ c.toNat ≤ 90 ∨ c.toNat = 95 ∨ 97 ≤ c.toNat ∧ c.toNat ≤ 122 := by
  unfold isIdChar Char.isAlphanum Char.isAlpha Char.isUpper Char.isLower Char.isDigit at h
  simp only [Bool.or_eq_true, Bool.and_eq_true, decide_eq_true_eq, beq_iff_eq, UInt32.le_iff_toNat_le, ge_iff_le] at h
  simp only [Char.toNat]
  rcases h with ((h | h) | h) | rfl
  · right; left; simpa using h
  · right; right; right; simpa using h
  · left; simpa using h
  · right; right; left; rfl

/-- An identifier character is no blank. -/
theorem isBlank_of_isIdChar {c : Char} (h : isIdChar c = true) : isBlank c = false := by
  have hc := toNat_of_isIdChar h
  simp only [isBlank, Bool.or_eq_false_iff, Bool.and_eq_false_iff, decide_eq_false_iff_not, beq_eq_false_iff_ne]
  omega

/-- A character that is no identifier character differs from each that is one. -/
theorem ne_of_isIdChar {c d : Char} (h : isIdChar c = true) (hd : isIdChar d = false) : c ≠ d := by
  rintro rfl
  simp [h] at hd

/-- An indentation is blank. -/
theorem isBlank_of_mem_indentation {n : Nat} {c : Char} (h : c ∈ List.replicate n ' ') : isBlank c = true := by
  rw [(List.mem_replicate.1 h).2]
  decide

/-- A text that begins with an identifier character. -/
def StartsWithIdChar (s : List Char) : Prop := ∃ c cs, s = c :: cs ∧ isIdChar c = true

/-- A text that a word begins starts with a character of ids. -/
theorem IsWord.startsWithIdChar {id : String} (h : IsWord id) (rest : List Char) :
    StartsWithIdChar (id.toList ++ rest) := by
  obtain ⟨c, cs, hcs⟩ := List.exists_cons_of_ne_nil h.toList_ne_nil
  exact ⟨c, cs ++ rest, by rw [hcs, List.cons_append], h.2 c (by simp [hcs])⟩

/-- Such a text begins with no blank. -/
theorem StartsWithIdChar.head {s : List Char} (h : StartsWithIdChar s) : ∀ d ∈ s.head?, isBlank d = false := by
  obtain ⟨c, cs, rfl, hc⟩ := h
  intro d hd
  simp only [List.head?_cons, Option.mem_def, Option.some.injEq] at hd
  exact hd ▸ isBlank_of_isIdChar hc

/-- Nor does it begin with a mark whose first character is of another kind. -/
theorem StartsWithIdChar.isPrefixOf {s : List Char} (h : StartsWithIdChar s) {m : Char} (ms : List Char)
    (hm : isIdChar m = false) : (m :: ms).isPrefixOf s = false := by
  obtain ⟨c, cs, rfl, hc⟩ := h
  have : m ≠ c := (ne_of_isIdChar hc hm).symm
  simp [List.isPrefixOf, this]

namespace Line

/-- An identifier character ends no word. -/
theorem isWordEnd_of_isIdChar {c : Char} (h : isIdChar c = true) : isWordEnd c = false := by
  simp [isWordEnd, isBlank_of_isIdChar h, ne_of_isIdChar h (d := ';') (by decide)]

/-- Every keyword is made of identifier characters and dashes. -/
theorem mem_lineKeyword {word : String} (h : word ∈ lineKeywords) : ∀ c ∈ word.toList, isIdChar c = true ∨ c = '-' := by
  have hall : ∀ k ∈ lineKeywords, (k.toList.all fun c => decide (isIdChar c = true ∨ c = '-')) = true := by decide
  exact List.all_iff_forall_prop.1 (hall word h)

/-- A line whose first word is no keyword is a statement, but for the line that closes a group. -/
theorem ofFirstWord_of_notMem {word : String} {rest text : List Char} (hw : word ∉ lineKeywords)
    (hend : word ≠ groupCloseLine ∨ rest ≠ []) :
    ofFirstWord word rest text = .statement (dropEndWhile (· == ';') text) := by
  simp only [lineKeywords, List.mem_append, List.mem_cons, List.not_mem_nil, or_false, not_or] at hw
  obtain ⟨⟨⟨hs, hd, hh, hg⟩, hk⟩, hdir⟩ := hw
  have hclose : (word == groupCloseLine && rest.isEmpty) = false := by
    rcases hend with h | h
    · simp [h]
    · simp [h]
  have hheader : isHeaderKeyword word = false := by simp [isHeaderKeyword, hh, hg, hk]
  have hdirective : directiveKeywords.contains word = false := by simp [hdir]
  simp only [ofFirstWord, hclose, hheader, hdirective, beq_iff_eq, hs, hd, Bool.false_eq_true, if_false]

/-- What a line is whose text begins with an identifier character, whatever the indentation. -/
theorem classify_indented {n : Nat} {s : List Char} (hs : StartsWithIdChar s)
    (hlast : ∀ d ∈ s.getLast?, isBlank d = false) :
    classify (List.replicate n ' ' ++ s) = ofFirstWord (String.ofList (firstWord s)) (afterFirstWord s) s := by
  have htrim : trim (List.replicate n ' ' ++ s) = s :=
    trim_append_of_blanks _ (fun _ => isBlank_of_mem_indentation) ⟨hs.head, hlast⟩
  have hcomment : commentMark.isPrefixOf s = false := hs.isPrefixOf _ (by decide)
  have hfence : fenceMark.isPrefixOf s = false := hs.isPrefixOf _ (by decide)
  have hne : s.isEmpty = false := by
    obtain ⟨c, cs, rfl, -⟩ := hs
    rfl
  simp [classify, htrim, hcomment, hfence, hne]

/-- The first word of a line ends where the first blank stands. -/
theorem firstWord_append {word rest : List Char} (hw : ∀ c ∈ word, isWordEnd c = false) :
    firstWord (word ++ ' ' :: rest) = word := by
  refine takeWhile_append_stop (fun c hc => by simp [hw c hc]) ?_
  intro c hc
  simp only [List.head?_cons, Option.mem_def, Option.some.injEq] at hc
  subst hc
  decide

/-- What follows the first word of a line, if it ends neither with a blank nor with a semicolon. -/
theorem afterFirstWord_append {word rest : List Char} (hw : ∀ c ∈ word, isWordEnd c = false) (hr : IsTrimmed rest)
    (hsemi : ∀ c ∈ rest.getLast?, c ≠ ';') : afterFirstWord (word ++ ' ' :: rest) = rest := by
  have htrim : trim (' ' :: rest) = rest := trim_append_of_blanks [' '] (List.all_iff_forall_prop.1 (by decide)) hr
  have hdrop : dropEndWhile (· == ';') rest = rest :=
    dropEndWhile_eq_self fun c hc => by simpa using hsemi c hc
  rw [afterFirstWord, firstWord_append hw, List.drop_left, htrim, hdrop, hr.trim_eq]

/-- Something follows the first word of a line that ends with neither a blank nor a semicolon and is more than its first
word. -/
theorem afterFirstWord_ne_nil {s : List Char} (hlast : ∀ c ∈ s.getLast?, isBlank c = false ∧ (c == ';') = false)
    (hne : firstWord s ≠ s) : afterFirstWord s ≠ [] := by
  have hsplit : firstWord s ++ s.drop (firstWord s).length = s := by
    conv_rhs => rw [← List.take_append_drop (firstWord s).length s]
    rw [firstWord, ← List.prefix_iff_eq_take.1 (List.takeWhile_prefix _)]
  rcases List.eq_nil_or_concat (s.drop (firstWord s).length) with hnil | ⟨front, c, hconcat⟩
  · rw [hnil, List.append_nil] at hsplit
    exact absurd hsplit hne
  · rw [List.concat_eq_append] at hconcat
    obtain ⟨hblank, hsemi⟩ := hlast c (by rw [← hsplit, hconcat, ← List.append_assoc, List.getLast?_concat, Option.mem_def])
    refine List.ne_nil_of_mem (a := c) ?_
    rw [afterFirstWord, hconcat]
    exact mem_trim (mem_dropEndWhile (mem_trim (by simp) hblank) hsemi) hblank

end Line

/-! ## Texts without fences -/

/-- A line as a description is written: an indentation, then a text that begins with an identifier character. -/
structure IsWrittenLine (l : List Char) : Prop where
  shape : ∃ n s, l = List.replicate n ' ' ++ s ∧ StartsWithIdChar s
  unbroken : ∀ c ∈ l, c ≠ '\n' ∧ c ≠ '\r'

/-- An indented text that begins with an identifier character is no fence. -/
theorem StartsWithIdChar.isFence {s : List Char} (h : StartsWithIdChar s) (k n : Nat) :
    (⟨n, List.replicate k ' ' ++ s⟩ : NumberedLine).isFence = false := by
  have htrim : trimStart (List.replicate k ' ' ++ s) = s :=
    trimStart_append_of_blanks (fun _ => isBlank_of_mem_indentation) h.head
  rw [NumberedLine.isFence, htrim]
  exact h.isPrefixOf _ (by decide)

/-- A written line is no fence. -/
theorem IsWrittenLine.isFence {l : List Char} (h : IsWrittenLine l) (n : Nat) :
    (⟨n, l⟩ : NumberedLine).isFence = false := by
  obtain ⟨k, s, rfl, hs⟩ := h.shape
  exact hs.isFence k n

/-- A line that a text is put together from and that stays in its body. -/
structure IsBodyLine (l : List Char) : Prop where
  newline : '\n' ∉ l
  ending : l.getLast? ≠ some '\r'
  unfenced : ∀ n, (⟨n, l⟩ : NumberedLine).isFence = false

/-- A written line may stand in a body. -/
theorem IsWrittenLine.isBodyLine {l : List Char} (h : IsWrittenLine l) : IsBodyLine l :=
  ⟨fun hn => (h.unbroken _ hn).1 rfl, fun hr => (h.unbroken _ (List.mem_of_getLast? hr)).2 rfl, h.isFence⟩

/-- Lines are numbered in order. -/
theorem pairwise_numberedLines (text : List Char) :
    (numberedLines text).Pairwise fun before after => before.number < after.number := by
  rw [numberedLines, List.pairwise_iff_getElem]
  intro i j hi hj hij
  rw [List.getElem_mapIdx, List.getElem_mapIdx]
  exact Nat.succ_lt_succ hij

/-- The numbered lines are the lines with their places. -/
theorem mem_numberedLines_iff {text : List Char} {line : NumberedLine} :
    line ∈ numberedLines text ↔ ∃ i, (lines text)[i]? = some line.text ∧ line.number = i + 1 := by
  rw [numberedLines, List.mem_mapIdx]
  constructor
  · rintro ⟨i, hi, rfl⟩
    exact ⟨i, List.getElem?_eq_getElem hi, rfl⟩
  · rintro ⟨i, hi, hnumber⟩
    obtain ⟨hlt, htext⟩ := List.getElem?_eq_some_iff.1 hi
    refine ⟨i, hlt, ?_⟩
    rw [htext, ← hnumber]

/-- What only the line with a certain number contributes to is what that line contributes. -/
theorem flatMap_numberedLines {text : List Char} {line : NumberedLine} (hline : line ∈ numberedLines text)
    {f : NumberedLine → List α} (hf : ∀ other, other.number ≠ line.number → f other = []) :
    (numberedLines text).flatMap f = f line := by
  obtain ⟨before, after, hsplit⟩ := List.append_of_mem hline
  have hordered := pairwise_numberedLines text
  rw [hsplit, List.pairwise_append, List.pairwise_cons] at hordered
  obtain ⟨-, ⟨hafter, -⟩, hbefore⟩ := hordered
  have hnoneBefore : before.flatMap f = [] :=
    List.flatMap_eq_nil_iff.2 fun other hother => hf other (Nat.ne_of_lt (hbefore other hother line List.mem_cons_self))
  have hnoneAfter : after.flatMap f = [] :=
    List.flatMap_eq_nil_iff.2 fun other hother => hf other (Nat.ne_of_gt (hafter other hother))
  rw [hsplit, List.flatMap_append, List.flatMap_cons, hnoneBefore, hnoneAfter, List.nil_append, List.append_nil]

/-- The lines of a body are lines of the text with their numbers, and what else a body keeps are numbers of such lines. -/
theorem Body.numbered_ofText (text : List Char) :
    (∀ line ∈ (ofText text).lines, line ∈ numberedLines text) ∧
    (∀ number ∈ (ofText text).strayFences, ∃ line ∈ numberedLines text, line.number = number) ∧
    ∀ number ∈ (ofText text).outside, ∃ line ∈ numberedLines text, line.number = number := by
  have hnumbers : ∀ p : NumberedLine → Bool, ∀ number ∈ ((numberedLines text).filter p).map (·.number),
      ∃ line ∈ numberedLines text, line.number = number := by
    intro p number h
    obtain ⟨line, hline, rfl⟩ := List.mem_map.1 h
    exact ⟨line, List.mem_of_mem_filter hline, rfl⟩
  unfold ofText
  simp only
  split
  · exact ⟨fun line h => h, nofun, nofun⟩
  · exact ⟨fun line h => List.mem_of_mem_filter h, nofun, hnumbers _⟩
  · exact ⟨fun line h => List.mem_of_mem_filter h, hnumbers _, nofun⟩

/-- A text without fences is its own body. -/
theorem Body.ofText_of_unfenced {text : List Char} (h : ∀ line ∈ numberedLines text, line.isFence = false) :
    Body.ofText text = ⟨numberedLines text, [], []⟩ := by
  have hfence : (numberedLines text).filter (·.isFence) = [] := by
    rw [List.filter_eq_nil_iff]
    intro line hline
    simp [h line hline]
  simp only [Body.ofText, hfence, List.map_nil]

/-- A text of such lines is its own body. -/
theorem Body.ofText_unlines {ls : List (List Char)} (h : ∀ l ∈ ls, IsBodyLine l) :
    Body.ofText (unlines ls) = ⟨ls.mapIdx fun i l => ⟨i + 1, l⟩, [], []⟩ := by
  have hlines : numberedLines (unlines ls) = ls.mapIdx fun i l => ⟨i + 1, l⟩ := by
    rw [numberedLines, lines_unlines fun l hl => ⟨(h l hl).newline, (h l hl).ending⟩]
  rw [Body.ofText_of_unfenced, hlines]
  rw [hlines]
  intro line hline
  obtain ⟨i, hi, rfl⟩ := List.mem_mapIdx.1 hline
  exact (h _ (List.getElem_mem hi)).unfenced _

end Whiteboard
