import Whiteboard.Text.Blank
import Whiteboard.Text.Lines
import Whiteboard.Text.Search
import Mathlib.Data.Bool.AllAny
import Mathlib.Data.List.Infix
import Mathlib.Data.List.TakeWhile

/-!
# Texts

Statements about the operations on texts that the rest of the theory rests on: what trimming leaves, where a run of
characters ends, the lines of a text that was put together from lines, and replacing an occurrence and putting it back.

A token that holds its first character only once (`Unbordered`) cannot overlap another occurrence of itself. That is why
a token written for a character gives the character back, whatever stands around it.
-/

namespace Whiteboard.Text

/-! ## Runs of characters -/

/-- A run of characters that satisfy `p`, and then nothing or one that does not. -/
theorem takeWhile_append_stop {p : α → Bool} {word rest : List α} (hw : ∀ c ∈ word, p c = true)
    (hr : ∀ c ∈ rest.head?, p c = false) : (word ++ rest).takeWhile p = word := by
  rw [List.takeWhile_append_of_pos hw]
  cases rest with
  | nil => simp
  | cons c cs => simp [hr c rfl]

/-- Dropping such a run leaves the rest. -/
theorem dropWhile_append_stop {p : α → Bool} {word rest : List α} (hw : ∀ c ∈ word, p c = true)
    (hr : ∀ c ∈ rest.head?, p c = false) : (word ++ rest).dropWhile p = rest := by
  rw [List.dropWhile_append_of_pos hw]
  cases rest with
  | nil => rfl
  | cons c cs => simp [hr c rfl]

/-! ## Trimming -/

/-- A text without a run at its end ends with what was last before the run. -/
theorem dropEndWhile_append_of_not {p : Char → Bool} (s : List Char) {c : Char} (h : p c = false) :
    dropEndWhile p (s ++ [c]) = s ++ [c] := by
  induction s with
  | nil => simp [dropEndWhile_cons, h]
  | cons x xs ih =>
    rw [List.cons_append, dropEndWhile_cons, ih]
    cases xs <;> rfl

/-- A last character that satisfies `p` goes. -/
theorem dropEndWhile_append_of_pos {p : Char → Bool} (s : List Char) {c : Char} (h : p c = true) :
    dropEndWhile p (s ++ [c]) = dropEndWhile p s := by
  induction s with
  | nil => simp [dropEndWhile_cons, h]
  | cons x xs ih => rw [List.cons_append, dropEndWhile_cons, ih, dropEndWhile_cons]

/-- A text whose last character does not satisfy `p` keeps its end. -/
theorem dropEndWhile_eq_self {p : Char → Bool} {s : List Char} (h : ∀ c ∈ s.getLast?, p c = false) :
    dropEndWhile p s = s := by
  rcases List.eq_nil_or_concat s with rfl | ⟨t, c, rfl⟩
  · rfl
  · rw [List.concat_eq_append] at h ⊢
    exact dropEndWhile_append_of_not t (h c (by simp))

/-- What is left has a last character that does not satisfy `p`. -/
theorem getLast?_dropEndWhile {p : Char → Bool} (s : List Char) :
    ∀ c ∈ (dropEndWhile p s).getLast?, p c = false := by
  induction s with
  | nil => simp
  | cons x xs ih =>
    rw [dropEndWhile_cons]
    cases hxs : dropEndWhile p xs with
    | nil =>
      by_cases hx : p x = true
      · simp [hx]
      · simp [hx]
    | cons y ys =>
      rw [hxs] at ih
      intro c hc
      rw [List.getLast?_cons_cons] at hc
      exact ih c hc

/-- Dropping a run at the end leaves the start of the text. -/
theorem dropEndWhile_prefix_self (p : Char → Bool) (s : List Char) : dropEndWhile p s <+: s := by
  induction s with
  | nil => exact List.prefix_refl _
  | cons x xs ih =>
    rw [dropEndWhile_cons]
    split
    · split
      · exact List.nil_prefix
      · exact ⟨xs, rfl⟩
    · exact (List.prefix_cons_inj x).2 ih

/-- What is dropped at the end of a text. -/
theorem exists_dropEndWhile_append (p : Char → Bool) (s : List Char) :
    ∃ back, s = dropEndWhile p s ++ back ∧ ∀ c ∈ back, p c = true := by
  induction s with
  | nil => exact ⟨[], rfl, by simp⟩
  | cons x xs ih =>
    obtain ⟨back, hback, hall⟩ := ih
    rw [dropEndWhile_cons]
    split
    · rename_i hnil
      rw [hnil, List.nil_append] at hback
      split
      · rename_i hx
        exact ⟨x :: xs, rfl, List.forall_mem_cons.2 ⟨hx, hback ▸ hall⟩⟩
      · exact ⟨back, by rw [hback]; rfl, hall⟩
    · exact ⟨back, by rw [List.cons_append, ← hback], hall⟩

/-- What is trimmed: the blanks in front and those behind. -/
theorem exists_trim_append (s : List Char) :
    ∃ back, s = s.takeWhile isBlank ++ (trim s ++ back) ∧ ∀ c ∈ back, isBlank c = true := by
  obtain ⟨back, hback, hall⟩ := exists_dropEndWhile_append isBlank (trimStart s)
  refine ⟨back, ?_, hall⟩
  rw [trim, trimEnd, ← hback, trimStart, List.takeWhile_append_dropWhile]

/-- A trimmed text is a part of the text. -/
theorem trim_infix_self (s : List Char) : trim s <:+: s :=
  (dropEndWhile_prefix_self _ _).isInfix.trans (List.dropWhile_suffix _).isInfix

/-- What is left after trimming was there before. -/
theorem mem_of_mem_trim {s : List Char} {c : Char} (h : c ∈ trim s) : c ∈ s := (trim_infix_self s).subset h

/-- A character that does not satisfy `p` is not dropped. -/
theorem mem_dropEndWhile {p : Char → Bool} {s : List Char} {c : Char} (h : c ∈ s) (hc : p c = false) :
    c ∈ dropEndWhile p s := by
  obtain ⟨back, hback, hall⟩ := exists_dropEndWhile_append p s
  rw [hback] at h
  rcases List.mem_append.1 h with h | h
  · exact h
  · simp [hall c h] at hc

/-- A character that is no blank is not trimmed. -/
theorem mem_trim {s : List Char} {c : Char} (h : c ∈ s) (hc : isBlank c = false) : c ∈ trim s := by
  refine mem_dropEndWhile ?_ hc
  rw [← List.takeWhile_append_dropWhile (p := isBlank) (l := s)] at h
  rcases List.mem_append.1 h with h | h
  · have hblank : isBlank c = true := List.mem_takeWhile_imp h
    simp [hblank] at hc
  · exact h

/-- A text with no blank at either end. -/
structure IsTrimmed (s : List Char) : Prop where
  head : ∀ c ∈ s.head?, isBlank c = false
  last : ∀ c ∈ s.getLast?, isBlank c = false

/-- Only the first and the last character need to be looked at. -/
instance (s : List Char) : Decidable (IsTrimmed s) :=
  decidable_of_iff (s.head?.all (!isBlank ·) = true ∧ s.getLast?.all (!isBlank ·) = true) <| by
    rw [Option.all_eq_true, Option.all_eq_true]
    exact ⟨fun h => ⟨by simpa using h.1, by simpa using h.2⟩, fun h => ⟨by simpa using h.head, by simpa using h.last⟩⟩

/-- Trimming changes nothing where there is no blank at either end. -/
theorem IsTrimmed.trim_eq {s : List Char} (h : IsTrimmed s) : trim s = s := by
  have hs : trimStart s = s := by
    cases s with
    | nil => rfl
    | cons c cs => simp [trimStart, h.head c rfl]
  rw [trim, hs]
  exact dropEndWhile_eq_self h.last

/-- Trimming leaves no blank at either end. -/
theorem isTrimmed_trim (s : List Char) : IsTrimmed (trim s) := by
  refine ⟨?_, getLast?_dropEndWhile _⟩
  intro c hc
  obtain ⟨rest, hrest⟩ := dropEndWhile_prefix_self isBlank (trimStart s)
  have hhead : c ∈ (trimStart s).head? := by
    rw [← hrest]
    rw [trim, trimEnd] at hc
    cases hd : dropEndWhile isBlank (trimStart s) with
    | nil => simp [hd] at hc
    | cons x xs => rw [hd] at hc; exact hc
  have hnot := List.head?_dropWhile_not isBlank s
  rw [trimStart] at hhead
  rw [Option.mem_def] at hhead
  rw [hhead] at hnot
  simpa using hnot

/-- Blanks in front are trimmed. -/
theorem trimStart_append_of_blanks {blanks s : List Char} (hb : ∀ c ∈ blanks, isBlank c = true)
    (hs : ∀ c ∈ s.head?, isBlank c = false) : trimStart (blanks ++ s) = s :=
  dropWhile_append_stop hb hs

/-- Blanks in front of a trimmed text are trimmed. -/
theorem trim_append_of_blanks (blanks : List Char) {s : List Char} (hb : ∀ c ∈ blanks, isBlank c = true) (hs : IsTrimmed s) :
    trim (blanks ++ s) = s := by
  rw [trim, trimStart_append_of_blanks hb hs.head]
  exact dropEndWhile_eq_self hs.last

/-! ## Lines -/

/-- A line that holds no line feed, and does not end with a carriage return, is the first of the text that it begins: a carriage
return in it has another character of the line behind it. -/
theorem lines_append_newline {l : List Char} (rest : List Char) (hn : '\n' ∉ l) (hr : l.getLast? ≠ some '\r') :
    lines (l ++ '\n' :: rest) = l :: lines rest := by
  induction l with
  | nil => rfl
  | cons c cs ih =>
    simp only [List.mem_cons, not_or] at hn
    have hrest : cs.getLast? ≠ some '\r' := by
      intro hlast
      exact hr (by rw [List.getLast?_cons, hlast]; rfl)
    have ih := ih hn.2 hrest
    rw [List.cons_append, lines_cons, ih]
    · exact fun h => hn.1 h.symm
    · intro tail hc htail
      cases cs with
      | nil => exact hr (by rw [hc]; rfl)
      | cons d ds => exact hn.2 (by rw [List.cons_append, List.cons.injEq] at htail; simp [htail.1])

/-- A text without a line feed is its only line. -/
theorem lines_eq_singleton {l : List Char} (hne : l ≠ []) (hn : '\n' ∉ l) : lines l = [l] := by
  induction l with
  | nil => exact absurd rfl hne
  | cons c cs ih =>
    simp only [List.mem_cons, not_or] at hn
    have hrest : lines cs = [] ∧ cs = [] ∨ lines cs = [cs] := by
      cases cs with
      | nil => exact Or.inl ⟨rfl, rfl⟩
      | cons d ds => exact Or.inr (ih (by simp) hn.2)
    rw [lines_cons]
    · rcases hrest with ⟨hlines, rfl⟩ | hlines
      · rfl
      · rw [hlines]
    · exact fun h => hn.1 h.symm
    · rintro tail - rfl
      exact hn.2 (by simp)

/-- A text has no lines only if it is empty. -/
theorem lines_eq_nil_iff {s : List Char} : lines s = [] ↔ s = [] := by
  constructor
  · intro h
    unfold lines at h
    split at h
    · rfl
    · cases h
    · cases h
    · split at h <;> cases h
  · rintro rfl
    rfl

/-- A character that ends no line is the first of the first line. -/
theorem lines_cons_of_eq {c : Char} {cs line : List Char} {rest : List (List Char)} (hc : c ≠ '\n')
    (hreturn : c = '\r' → cs.head? ≠ some '\n') (hlines : lines cs = line :: rest) :
    lines (c :: cs) = (c :: line) :: rest := by
  rw [lines_cons hc, hlines]
  rintro tail rfl rfl
  exact hreturn rfl rfl

/-- A character in front of a text that has lines stands in the first of them, whatever is put behind the text. -/
theorem lines_cons_append {c : Char} {cs rest line : List Char} {others others' : List (List Char)} (hc : c ≠ '\n')
    (hreturn : ∀ tail, c = '\r' → cs = '\n' :: tail → False) (hlines : lines cs = line :: others)
    (hlines' : lines (cs ++ rest) = line :: others') : lines (c :: cs ++ rest) = (c :: line) :: others' := by
  refine lines_cons_of_eq hc ?_ hlines'
  intro hr hhead
  cases cs with
  | nil => cases hlines
  | cons d ds => exact hreturn ds hr (by rw [Option.some.inj hhead])

/-- Behind a text that ends with a line feed the lines of the rest begin. -/
theorem lines_append_of_ended {s : List Char} (h : ∀ c ∈ s.getLast?, c = '\n') (rest : List Char) :
    lines (s ++ rest) = lines s ++ lines rest := by
  fun_induction lines s with
  | case1 => rfl
  | case2 cs ih =>
    rw [List.cons_append, lines_newline, ih, List.cons_append]
    intro c hc
    exact h c (by rw [List.getLast?_cons, hc]; rfl)
  | case3 cs ih =>
    rw [List.cons_append, List.cons_append, lines_return, ih, List.cons_append]
    intro c hc
    exact h c (by rw [List.getLast?_cons, List.getLast?_cons, hc]; rfl)
  | case4 c cs hc hreturn hnone =>
    obtain rfl := lines_eq_nil_iff.1 hnone
    exact absurd (h c rfl) hc
  | case5 c cs hc hreturn line others hlines ih =>
    have hrest : ∀ d ∈ cs.getLast?, d = '\n' := fun d hd => h d (by rw [List.getLast?_cons, hd]; rfl)
    have hjoined : lines (cs ++ rest) = line :: (others ++ lines rest) := by rw [ih hrest, hlines, List.cons_append]
    exact lines_cons_append hc hreturn hlines hjoined

/-- A terminator behind a last line that has none opens no further line. The line feed has a carriage return with it, for one
that the line ends with would not stay in it otherwise. -/
theorem lines_append_return {s : List Char} (hne : s ≠ []) (hlast : s.getLast? ≠ some '\n') :
    lines (s ++ ['\r', '\n']) = lines s := by
  fun_induction lines s with
  | case1 => exact absurd rfl hne
  | case2 cs ih =>
    cases cs with
    | nil => exact absurd rfl hlast
    | cons d ds =>
      rw [List.getLast?_cons_cons] at hlast
      rw [List.cons_append, lines_newline, ih (List.cons_ne_nil d ds) hlast]
  | case3 cs ih =>
    cases cs with
    | nil => exact absurd rfl hlast
    | cons d ds =>
      rw [List.getLast?_cons_cons, List.getLast?_cons_cons] at hlast
      rw [List.cons_append, List.cons_append, lines_return, ih (List.cons_ne_nil d ds) hlast]
  | case4 c cs hc hreturn hnone =>
    obtain rfl := lines_eq_nil_iff.1 hnone
    exact lines_cons_of_eq hc (fun _ => by decide) rfl
  | case5 c cs hc hreturn line others hlines ih =>
    refine lines_cons_append hc hreturn hlines ?_
    cases cs with
    | nil => cases hlines
    | cons d ds =>
      rw [List.getLast?_cons_cons] at hlast
      rw [ih (List.cons_ne_nil d ds) hlast, hlines]

/-- A text that holds no line feed, and does not end with a carriage return, stands in the first line of a text that begins
with it. -/
theorem exists_lines_append {part : List Char} (hne : part ≠ []) (hn : '\n' ∉ part) (hr : part.getLast? ≠ some '\r')
    (after : List Char) : ∃ back rest, lines (part ++ after) = (part ++ back) :: rest := by
  induction part with
  | nil => exact absurd rfl hne
  | cons c cs ih =>
    simp only [List.mem_cons, not_or] at hn
    have hc : c ≠ '\n' := fun h => hn.1 h.symm
    cases cs with
    | nil =>
      have hnotReturn : c ≠ '\r' := fun h => hr (by rw [h]; rfl)
      cases hafter : lines after with
      | nil =>
        refine ⟨[], [], ?_⟩
        rw [List.singleton_append, lines_cons hc fun _ h => absurd h hnotReturn, hafter]
        rfl
      | cons line rest => exact ⟨line, rest, lines_cons_of_eq hc (fun h => absurd h hnotReturn) hafter⟩
    | cons d ds =>
      obtain ⟨back, rest, hlines⟩ := ih (List.cons_ne_nil d ds) hn.2 (by rwa [List.getLast?_cons_cons] at hr)
      refine ⟨back, rest, lines_cons_of_eq hc (fun _ h => hn.2 ?_) hlines⟩
      rw [← Option.some.inj h]
      exact List.mem_cons_self

/-- Wherever such a text stands, it stands in the line that it begins in: as many line feeds lie before it as lines. -/
theorem exists_line_of_append {part : List Char} (hne : part ≠ []) (hn : '\n' ∉ part) (hr : part.getLast? ≠ some '\r')
    (before after : List Char) :
    ∃ line, (lines (before ++ (part ++ after)))[before.count '\n']? = some line ∧ part <:+: line := by
  have hpart : (part ++ after).head? ≠ some '\n' := by
    obtain ⟨c, cs, rfl⟩ := List.exists_cons_of_ne_nil hne
    rintro ⟨⟩
    exact hn List.mem_cons_self
  induction before using lines.induct with
  | case1 =>
    obtain ⟨back, rest, hlines⟩ := exists_lines_append hne hn hr after
    exact ⟨part ++ back, by rw [List.nil_append, hlines]; rfl, ⟨[], back, by simp⟩⟩
  | case2 cs ih =>
    obtain ⟨line, hline, hinfix⟩ := ih
    refine ⟨line, ?_, hinfix⟩
    rw [List.count_cons_self, List.cons_append, lines_newline, List.getElem?_cons_succ]
    exact hline
  | case3 cs ih =>
    obtain ⟨line, hline, hinfix⟩ := ih
    refine ⟨line, ?_, hinfix⟩
    rw [List.count_cons_of_ne (by decide), List.count_cons_self, List.cons_append, List.cons_append, lines_return,
      List.getElem?_cons_succ]
    exact hline
  | case4 c cs hc hreturn _ ih | case5 c cs hc hreturn line rest _ ih =>
    obtain ⟨line, hline, hinfix⟩ := ih
    have hc : c ≠ '\n' := fun h => hc h
    have hhead : c = '\r' → (cs ++ (part ++ after)).head? ≠ some '\n' := by
      rintro rfl h
      cases cs with
      | nil => exact hpart h
      | cons d ds =>
        rw [List.cons_append, List.head?_cons, Option.some.injEq] at h
        exact hreturn ds rfl (by rw [h])
    rw [List.count_cons_of_ne hc]
    cases hlines : lines (cs ++ (part ++ after)) with
    | nil => simp [hlines] at hline
    | cons first others =>
      rw [List.cons_append, lines_cons_of_eq hc hhead hlines]
      rw [hlines] at hline
      cases hcount : cs.count '\n' with
      | zero =>
        rw [hcount] at hline
        cases hline
        exact ⟨c :: line, rfl, List.infix_cons hinfix⟩
      | succ n =>
        rw [hcount] at hline
        exact ⟨line, hline, hinfix⟩

/-- The lines of a text that is put together from lines are those lines. -/
theorem lines_unlines {ls : List (List Char)} (h : ∀ l ∈ ls, '\n' ∉ l ∧ l.getLast? ≠ some '\r') :
    lines (unlines ls) = ls := by
  induction ls with
  | nil => rfl
  | cons l ls ih =>
    have hl := h l (by simp)
    have hcons : unlines (l :: ls) = l ++ '\n' :: unlines ls := by simp [unlines]
    rw [hcons, lines_append_newline _ hl.1 hl.2, ih fun l' h' => h l' (by simp [h'])]

/-- Every carriage return of a text is followed by a line feed. -/
def HasPairedReturns (s : List Char) : Prop := ∀ a b, s = a ++ '\r' :: b → b.head? = some '\n'

/-- Without carriage returns all of them are paired. -/
theorem hasPairedReturns_of_notMem {s : List Char} (h : '\r' ∉ s) : HasPairedReturns s := by
  rintro a b rfl
  exact absurd (by simp) h

/-- The end of a text with paired returns has paired returns. -/
theorem HasPairedReturns.of_append {a b : List Char} (h : HasPairedReturns (a ++ b)) : HasPairedReturns b :=
  fun u v huv => h (a ++ u) v (by rw [huv, List.append_assoc])

/-- Where every carriage return belongs to the end of a line, no line holds one. -/
theorem return_notMem_of_mem_lines {s l : List Char} (hs : HasPairedReturns s) (h : l ∈ lines s) : '\r' ∉ l := by
  induction s using lines.induct generalizing l with
  | case1 => simp at h
  | case2 cs ih =>
    rw [lines_newline, List.mem_cons] at h
    rcases h with rfl | h
    · simp
    · exact ih (hs.of_append (a := ['\n'])) h
  | case3 cs ih =>
    rw [lines_return, List.mem_cons] at h
    rcases h with rfl | h
    · simp
    · exact ih (hs.of_append (a := ['\r', '\n'])) h
  | case4 c cs hn hcr hcs ih =>
    rw [lines_cons hn hcr, hcs, List.mem_singleton] at h
    subst h
    have hc : c ≠ '\r' := notReturn hs hcr
    simpa using fun hc' : '\r' = c => hc hc'.symm
  | case5 c cs hn hcr line rest hcs ih =>
    have ih := fun l hl => ih (l := l) (hs.of_append (a := [c])) hl
    rw [lines_cons hn hcr, hcs, List.mem_cons] at h
    rcases h with rfl | h
    · have hc : c ≠ '\r' := notReturn hs hcr
      simp only [List.mem_cons, not_or]
      exact ⟨fun hc' => hc hc'.symm, ih line (by rw [hcs]; simp)⟩
    · exact ih l (by rw [hcs]; simp [h])
where
  /-- A first character that is not the start of a line end is no carriage return. -/
  notReturn {c : Char} {cs : List Char} (hs : HasPairedReturns (c :: cs))
      (hcr : ∀ rest, c = '\r' → cs = '\n' :: rest → False) : c ≠ '\r' := by
    rintro rfl
    have hhead := hs [] cs rfl
    cases cs with
    | nil => simp at hhead
    | cons d ds =>
      simp only [List.head?_cons, Option.some.injEq] at hhead
      exact hcr ds rfl (by rw [hhead])

/-! ## Replacing -/

/-- Replacing a single character replaces each of its occurrences. -/
theorem replaceAll_singleton (c : Char) (sub s : List Char) :
    replaceAll [c] sub s = s.flatMap fun x => if x = c then sub else [x] := by
  induction s with
  | nil => rw [replaceAll_nil]; rfl
  | cons x xs ih =>
    rw [replaceAll_cons, List.flatMap_cons, ← ih]
    by_cases hx : x = c
    · simp [hx, List.isPrefixOf]
    · have : ¬ c = x := fun h => hx h.symm
      simp [hx, this, List.isPrefixOf]

/-- A text in which the pattern occurs nowhere stays as it is. -/
theorem replaceAll_of_not_infix {pat sub s : List Char} (h : ¬ pat <:+: s) : replaceAll pat sub s = s := by
  induction s with
  | nil => rw [replaceAll_nil]
  | cons c cs ih =>
    rw [replaceAll_cons, if_neg, ih]
    · exact fun hi => h (List.infix_cons hi)
    · intro hp
      exact h (List.isPrefixOf_iff_prefix.1 hp).isInfix

/-- What occurs at the start of a text after replacing, and does not hold the new character, was there before. -/
theorem prefix_of_prefix_replaceAll {pat q : List Char} {c : Char} (hc : c ∉ q) {s : List Char}
    (h : q <+: replaceAll pat [c] s) : q <+: s := by
  induction s generalizing q with
  | nil => rwa [replaceAll_nil] at h
  | cons x xs ih =>
    cases q with
    | nil => exact List.nil_prefix
    | cons y ys =>
      simp only [List.mem_cons, not_or] at hc
      rw [replaceAll_cons] at h
      split at h
      · rw [List.singleton_append, List.cons_prefix_cons] at h
        exact absurd h.1.symm hc.1
      · rw [List.cons_prefix_cons] at h ⊢
        exact ⟨h.1, ih hc.2 h.2⟩

/-- What occurs after replacing, and does not hold the new character, occurred before. -/
theorem infix_of_infix_replaceAll {pat q : List Char} {c : Char} (hc : c ∉ q) {s : List Char}
    (h : q <:+: replaceAll pat [c] s) : q <:+: s := by
  induction s using replaceAll.induct pat with
  | case1 => rwa [replaceAll_nil] at h
  | case2 x xs hp ih =>
    rw [replaceAll_cons, if_pos hp, List.singleton_append] at h
    rcases List.infix_cons_iff.1 h with h | h
    · cases q with
      | nil => exact List.nil_infix
      | cons y ys =>
        rw [List.cons_prefix_cons] at h
        exact absurd (by simp [h.1]) hc
    · exact (ih h).trans ((List.drop_suffix _ _).isInfix.trans (List.suffix_cons x xs).isInfix)
  | case3 x xs hp ih =>
    have hcons : replaceAll pat [c] (x :: xs) = x :: replaceAll pat [c] xs := by rw [replaceAll_cons, if_neg hp]
    rw [hcons] at h
    rcases List.infix_cons_iff.1 h with h | h
    · rw [← hcons] at h
      exact (prefix_of_prefix_replaceAll hc h).isInfix
    · exact List.infix_cons (ih h)

/-- After replacing, the pattern does not occur any more if it does not hold the new character. -/
theorem not_infix_replaceAll_self {pat : List Char} {c : Char} (hc : c ∉ pat) (hpat : pat ≠ []) (s : List Char) :
    ¬ pat <:+: replaceAll pat [c] s := by
  induction s using replaceAll.induct pat with
  | case1 =>
    rw [replaceAll_nil]
    exact fun h => hpat (List.eq_nil_of_infix_nil h)
  | case2 x xs hp ih =>
    rw [replaceAll_cons, if_pos hp, List.singleton_append]
    intro h
    rcases List.infix_cons_iff.1 h with h | h
    · cases pat with
      | nil => exact hpat rfl
      | cons y ys =>
        rw [List.cons_prefix_cons] at h
        exact hc (by simp [h.1])
    · exact ih h
  | case3 x xs hp ih =>
    have hcons : replaceAll pat [c] (x :: xs) = x :: replaceAll pat [c] xs := by rw [replaceAll_cons, if_neg hp]
    rw [hcons]
    intro h
    rcases List.infix_cons_iff.1 h with h | h
    · rw [← hcons] at h
      exact hp (List.isPrefixOf_iff_prefix.2 (prefix_of_prefix_replaceAll hc h))
    · exact ih h

/-! ## Putting back -/

/-- A token that holds its first character only once, so that no two of its occurrences overlap. -/
def Unbordered : List Char → Prop
  | [] => False
  | h :: t => h ∉ t

instance : DecidablePred Unbordered
  | [] => inferInstanceAs (Decidable False)
  | h :: t => inferInstanceAs (Decidable (h ∉ t))

/-- Every occurrence of `c` written as the token. -/
def spellOut (c : Char) (token s : List Char) : List Char := s.flatMap fun x => if x = c then token else [x]

@[simp] theorem spellOut_nil (c : Char) (token : List Char) : spellOut c token [] = [] := rfl

@[simp] theorem spellOut_cons_self (c : Char) (token s : List Char) :
    spellOut c token (c :: s) = token ++ spellOut c token s := by
  simp [spellOut]

theorem spellOut_cons_of_ne {c x : Char} (h : x ≠ c) (token s : List Char) :
    spellOut c token (x :: s) = x :: spellOut c token s := by
  simp [spellOut, h]

/-- A text at the start after spelling out was there before, if it does not hold the first character of the token. -/
theorem prefix_of_prefix_spellOut {c h : Char} {t q : List Char} (hq : h ∉ q) {s : List Char}
    (hp : q <+: spellOut c (h :: t) s) : q <+: s := by
  induction s generalizing q with
  | nil => exact hp
  | cons x xs ih =>
    cases q with
    | nil => exact List.nil_prefix
    | cons y ys =>
      simp only [List.mem_cons, not_or] at hq
      by_cases hx : x = c
      · rw [hx, spellOut_cons_self, List.cons_append, List.cons_prefix_cons] at hp
        exact absurd hp.1.symm hq.1
      · rw [spellOut_cons_of_ne hx, List.cons_prefix_cons] at hp
        rw [List.cons_prefix_cons]
        exact ⟨hp.1, ih hq.2 hp.2⟩

/-- A text without the character is not changed by spelling it out. -/
theorem spellOut_append_of_notMem {c : Char} {token u : List Char} (hc : c ∉ u) (v : List Char) :
    spellOut c token (u ++ v) = u ++ spellOut c token v := by
  induction u with
  | nil => rfl
  | cons x xs ih =>
    simp only [List.mem_cons, not_or] at hc
    rw [List.cons_append, spellOut_cons_of_ne (fun h => hc.1 h.symm), ih hc.2, List.cons_append]

/-- Two characters can be spelled out in either order, if neither stands in the token of the other. -/
theorem spellOut_comm {c d : Char} {tokenC tokenD : List Char} (hcd : c ≠ d) (hc : c ∉ tokenD) (hd : d ∉ tokenC)
    (s : List Char) : spellOut c tokenC (spellOut d tokenD s) = spellOut d tokenD (spellOut c tokenC s) := by
  induction s with
  | nil => rfl
  | cons x xs ih =>
    by_cases hxc : x = c
    · subst hxc
      rw [spellOut_cons_of_ne hcd, spellOut_cons_self, spellOut_cons_self, spellOut_append_of_notMem hd, ih]
    · by_cases hxd : x = d
      · subst hxd
        rw [spellOut_cons_self, spellOut_cons_of_ne hxc, spellOut_cons_self, spellOut_append_of_notMem hc, ih]
      · rw [spellOut_cons_of_ne hxd, spellOut_cons_of_ne hxc, spellOut_cons_of_ne hxc, spellOut_cons_of_ne hxd, ih]

/-- What occurs in two texts in a row, and begins with a character that the first lacks, occurs in the second. -/
theorem infix_of_infix_append {y : Char} {ys u v : List Char} (hy : y ∉ u) (h : y :: ys <:+: u ++ v) :
    y :: ys <:+: v := by
  induction u with
  | nil => exact h
  | cons x xs ih =>
    simp only [List.mem_cons, not_or] at hy
    rw [List.cons_append] at h
    rcases List.infix_cons_iff.1 h with h | h
    · exact absurd (List.cons_prefix_cons.1 h).1 hy.1
    · exact ih hy.2 h

/-- What occurs after spelling out, and has no character in common with the token, occurred before. -/
theorem infix_of_infix_spellOut {c t : Char} {ts q : List Char} (hq : ∀ x ∈ q, x ∉ t :: ts) {s : List Char}
    (h : q <:+: spellOut c (t :: ts) s) : q <:+: s := by
  rcases q with _ | ⟨y, ys⟩
  · exact List.nil_infix
  have ht : t ∉ y :: ys := fun ht => hq t ht (by simp)
  induction s with
  | nil => exact h
  | cons x xs ih =>
    by_cases hx : x = c
    · subst hx
      rw [spellOut_cons_self] at h
      exact List.infix_cons (ih (infix_of_infix_append (hq y (by simp)) h))
    · rw [spellOut_cons_of_ne hx] at h
      rcases List.infix_cons_iff.1 h with hp | hi
      · rw [← spellOut_cons_of_ne hx] at hp
        exact (prefix_of_prefix_spellOut ht hp).isInfix
      · exact List.infix_cons (ih hi)

/-- A character that was spelled out as a token comes back, if the token did not occur before. The rest of the token cannot
reach into one that was spelled out, whose first character it lacks. -/
theorem replaceAll_spellOut {c : Char} {token s : List Char} (hu : Unbordered token) (hs : ¬ token <:+: s) :
    replaceAll token [c] (spellOut c token s) = s := by
  cases token with
  | nil => exact absurd hu id
  | cons h t =>
    induction s with
    | nil => rw [spellOut_nil, replaceAll_nil]
    | cons x xs ih =>
      have ih := ih fun hi => hs (List.infix_cons hi)
      by_cases hx : x = c
      · subst hx
        rw [spellOut_cons_self, List.cons_append, replaceAll_cons, if_pos (by simp [List.isPrefixOf_iff_prefix])]
        simp [ih]
      · rw [spellOut_cons_of_ne hx, replaceAll_cons, if_neg, ih]
        rw [List.isPrefixOf_iff_prefix, List.cons_prefix_cons]
        rintro ⟨rfl, ht⟩
        exact hs (List.cons_prefix_cons.2 ⟨rfl, prefix_of_prefix_spellOut hu ht⟩).isInfix

end Whiteboard.Text
