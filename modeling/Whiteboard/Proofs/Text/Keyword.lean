import Whiteboard.Proofs.Diagram.Line
import Whiteboard.Text.Keyword

/-!
# Words in a line

A word stands in a line if what is next to it on either side is no word character. A keyword occurs also where only those of
its ends that call for it fall on a word boundary (`Keyword.IsPlace`). The search for a keyword finds the first place where it
occurs (`Keyword.isFirstPlace_of_find?`) and finds nothing only if there is none (`Keyword.find?_eq_none_iff`); so it finds
every keyword that stands in a line.
-/

namespace Whiteboard.Text

/-! ## Word characters -/

/-- An identifier character is a word character. -/
theorem isWordChar_of_isIdChar {c : Char} (h : isIdChar c = true) : isWordChar c = true := by
  have hrange := toNat_of_isIdChar h
  have hascii : c.toNat < 0x80 := by omega
  rw [isWordChar, isLetterOrDigit, if_pos hascii]
  rw [isIdChar, Bool.or_eq_true] at h
  rcases h with h | h
  · rw [h, Bool.true_or]
  · rw [beq_iff_eq.1 h]
    decide

/-- The codes of the blanks. -/
def blankCodes : List Nat :=
  List.range' 9 5 ++ [0x20, 0x85, 0xA0, 0x1680] ++ List.range' 0x2000 11 ++ [0x2028, 0x2029, 0x202F, 0x205F, 0x3000]

/-- A blank is no word character. -/
theorem isWordChar_of_isBlank {c : Char} (h : isBlank c = true) : isWordChar c = false := by
  have hmem : c.toNat ∈ blankCodes := by
    simp only [isBlank, Bool.or_eq_true, Bool.and_eq_true, decide_eq_true_eq, beq_iff_eq] at h
    simp only [blankCodes, List.mem_append, List.mem_range'_1, List.mem_cons, List.not_mem_nil, or_false]
    omega
  have hall : ∀ n ∈ blankCodes, isWordChar (Char.ofNat n) = false := by decide +kernel
  rw [← Char.ofNat_toNat c]
  exact hall _ hmem

/-! ## Words that stand in a line -/

/-- A text after which a word may begin: it is empty or ends with a character that is no word character. -/
def EndsOpen (s : List Char) : Prop := ∀ c ∈ s.getLast?, isWordChar c = false

/-- A text before which a word may end. -/
def StartsOpen (s : List Char) : Prop := ∀ c ∈ s.head?, isWordChar c = false

/-- A word occurs in a line with no word character next to it. -/
def StandsIn (word line : List Char) : Prop :=
  ∃ before after, line = before ++ (word ++ after) ∧ EndsOpen before ∧ StartsOpen after

theorem endsOpen_nil : EndsOpen [] := by
  rintro c ⟨⟩

theorem EndsOpen.append {s t : List Char} (hs : EndsOpen s) (ht : EndsOpen t) : EndsOpen (s ++ t) := by
  intro c hc
  rw [List.getLast?_append, Option.mem_def] at hc
  cases hlast : t.getLast? with
  | none => exact hs c (by simpa [hlast] using hc)
  | some d => exact ht c (by simpa [hlast] using hc)

theorem StartsOpen.append {s t : List Char} (hs : StartsOpen s) (ht : StartsOpen t) : StartsOpen (s ++ t) := by
  intro c hc
  cases s with
  | nil => exact ht c hc
  | cons d ds => exact hs c hc

/-- A word may begin behind blanks. -/
theorem endsOpen_of_blanks {s : List Char} (h : ∀ c ∈ s, isBlank c = true) : EndsOpen s :=
  fun c hc => isWordChar_of_isBlank (h c (List.mem_of_getLast? hc))

/-- A word may end before blanks. -/
theorem startsOpen_of_blanks {s : List Char} (h : ∀ c ∈ s, isBlank c = true) : StartsOpen s :=
  fun c hc => isWordChar_of_isBlank (h c (List.mem_of_head? hc))

/-- A word may begin behind a character that is no word character. -/
theorem endsOpen_concat (s : List Char) {c : Char} (h : isWordChar c = false) : EndsOpen (s ++ [c]) := by
  intro d hd
  rw [List.getLast?_concat] at hd
  cases hd
  exact h

/-- What stands in a part of a line stands in the line, if the part is set off on both sides. -/
theorem StandsIn.append {word line : List Char} (h : StandsIn word line) {front back : List Char} (hf : EndsOpen front)
    (hb : StartsOpen back) : StandsIn word (front ++ (line ++ back)) := by
  obtain ⟨before, after, rfl, hbefore, hafter⟩ := h
  exact ⟨front ++ before, after ++ back, by simp, hf.append hbefore, hafter.append hb⟩

namespace Keyword

/-! ## Places of a keyword -/

/-- A keyword occurs in a line behind `passed` characters: it stands there, and if it begins or ends with an ASCII letter or
digit or an underscore, a word boundary lies before or behind it. -/
def IsPlace (keyword line : List Char) (passed : Nat) : Prop :=
  ∃ before after, line = before ++ (keyword ++ after) ∧ before.length = passed ∧
    (∀ c ∈ keyword.head?, isWordEdge c = true → isWordBoundary before.getLast? (some c) = true) ∧
    ∀ c ∈ keyword.getLast?, isWordEdge c = true → isWordBoundary (some c) after.head? = true

/-- The first place where a keyword occurs in a line. -/
structure IsFirstPlace (keyword line : List Char) (passed : Nat) : Prop where
  isPlace : IsPlace keyword line passed
  first : ∀ earlier < passed, ¬ IsPlace keyword line earlier

/-- What has to hold at the two ends of a keyword that stands at the head of a text. -/
theorem occursAt_append_iff {keyword : List Char} (hne : keyword ≠ []) (before : Option Char) (after : List Char) :
    occursAt keyword before (keyword ++ after) = true ↔
      (∀ c ∈ keyword.head?, isWordEdge c = true → isWordBoundary before (some c) = true) ∧
      ∀ c ∈ keyword.getLast?, isWordEdge c = true → isWordBoundary (some c) after.head? = true := by
  have hprefix : keyword.isPrefixOf (keyword ++ after) = true := by
    rw [List.isPrefixOf_iff_prefix]
    exact List.prefix_append _ _
  have hlast := List.getLast?_eq_some_getLast hne
  obtain ⟨c, cs, rfl⟩ := List.exists_cons_of_ne_nil hne
  generalize (c :: cs).getLast hne = d at hlast
  rw [occursAt, hprefix, List.drop_left, hlast]
  simp only [List.cons_append, List.head?_cons, Option.any_some, Bool.true_and, Bool.and_eq_true, Bool.or_eq_true,
    Bool.not_eq_true', Option.mem_def, Option.some.injEq, forall_eq']
  cases isWordEdge c <;> cases isWordEdge d <;> simp

/-- Whether a keyword occurs behind the part of a line that has been passed. -/
theorem isPlace_append_iff {keyword : List Char} (hne : keyword ≠ []) (front rest : List Char) :
    IsPlace keyword (front ++ rest) front.length ↔ occursAt keyword front.getLast? rest = true := by
  constructor
  · rintro ⟨before, after, hline, hlength, hedges⟩
    obtain ⟨rfl, rfl⟩ := List.append_inj hline hlength.symm
    exact (occursAt_append_iff hne _ after).2 hedges
  · intro h
    have hprefix : keyword <+: rest := by
      rw [← List.isPrefixOf_iff_prefix]
      simp only [occursAt, Bool.and_eq_true] at h
      exact h.1.1
    obtain ⟨after, rfl⟩ := hprefix
    exact ⟨front, after, rfl, rfl, (occursAt_append_iff hne _ after).1 h⟩

/-- A keyword ends within its line. -/
theorem IsPlace.lt_length {keyword line : List Char} {passed : Nat} (hne : keyword ≠ []) (h : IsPlace keyword line passed) :
    passed < line.length := by
  obtain ⟨before, after, rfl, rfl, -⟩ := h
  have := List.length_pos_iff.2 hne
  simp only [List.length_append]
  omega

/-- The search from some place on finds the first place from there on: where nothing is found at this place, it is the search
from the next. -/
theorem findFrom_spec {keyword : List Char} (hne : keyword ≠ []) (front rest : List Char) :
    (∀ place, findFrom keyword front.getLast? front.length rest = some place →
      IsPlace keyword (front ++ rest) place ∧
        ∀ earlier, front.length ≤ earlier → earlier < place → ¬ IsPlace keyword (front ++ rest) earlier) ∧
    (findFrom keyword front.getLast? front.length rest = none →
      ∀ place, front.length ≤ place → ¬ IsPlace keyword (front ++ rest) place) := by
  induction rest generalizing front with
  | nil =>
    refine ⟨nofun, fun _ place hplace h => ?_⟩
    have hlt := h.lt_length hne
    rw [List.append_nil] at hlt
    omega
  | cons c cs ih =>
    rw [findFrom]
    by_cases hoccurs : occursAt keyword front.getLast? (c :: cs) = true
    · rw [if_pos hoccurs]
      refine ⟨fun place hplace => ?_, nofun⟩
      cases hplace
      exact ⟨(isPlace_append_iff hne front _).2 hoccurs, fun earlier hle hlt => absurd hlt (Nat.not_lt.2 hle)⟩
    · rw [if_neg hoccurs]
      have hnot : ¬ IsPlace keyword (front ++ c :: cs) front.length := fun h => hoccurs ((isPlace_append_iff hne front _).1 h)
      have hnext := ih (front ++ [c])
      rw [List.getLast?_concat, List.length_append, List.length_singleton, List.append_assoc, List.singleton_append] at hnext
      have hskip : ∀ place, front.length ≤ place → IsPlace keyword (front ++ c :: cs) place → front.length + 1 ≤ place := by
        intro place hle hplace
        rcases Nat.eq_or_lt_of_le hle with rfl | hlt
        · exact absurd hplace hnot
        · exact hlt
      refine ⟨fun place hplace => ?_, fun hnone place hle h => hnext.2 hnone place (hskip place hle h) h⟩
      obtain ⟨hfound, hbefore⟩ := hnext.1 place hplace
      exact ⟨hfound, fun earlier hle hlt h => hbefore earlier (hskip earlier hle h) hlt h⟩

/-- What is found is the first place. -/
theorem isFirstPlace_of_find? {keyword line : List Char} (hne : keyword ≠ []) {passed : Nat}
    (h : find? keyword line = some passed) : IsFirstPlace keyword line passed := by
  obtain ⟨hplace, hfirst⟩ := (findFrom_spec hne [] line).1 passed h
  exact ⟨hplace, fun earlier hlt => hfirst earlier (Nat.zero_le _) hlt⟩

/-- Nothing is found exactly if there is no place. -/
theorem find?_eq_none_iff {keyword line : List Char} (hne : keyword ≠ []) :
    find? keyword line = none ↔ ∀ passed, ¬ IsPlace keyword line passed := by
  refine ⟨fun h passed => (findFrom_spec hne [] line).2 h passed (Nat.zero_le _), fun h => ?_⟩
  cases hfind : find? keyword line with
  | none => rfl
  | some passed => exact absurd (isFirstPlace_of_find? hne hfind).isPlace (h passed)

/-- The first place is found. -/
theorem IsFirstPlace.find?_eq {keyword line : List Char} (hne : keyword ≠ []) {passed : Nat}
    (h : IsFirstPlace keyword line passed) : find? keyword line = some passed := by
  cases hfind : find? keyword line with
  | none => exact absurd h.isPlace ((find?_eq_none_iff hne).1 hfind passed)
  | some found =>
    have hfound := isFirstPlace_of_find? hne hfind
    rcases Nat.lt_trichotomy found passed with hlt | rfl | hgt
    · exact absurd hfound.isPlace (h.first found hlt)
    · rfl
    · exact absurd h.isPlace (hfound.first passed hgt)

/-- A word boundary lies between a word character and an open end. -/
theorem isWordBoundary_of_open {c : Char} {neighbour : Option Char} (hc : isWordChar c = true)
    (hopen : ∀ d ∈ neighbour, isWordChar d = false) :
    isWordBoundary neighbour (some c) = true ∧ isWordBoundary (some c) neighbour = true := by
  have hneighbour : neighbour.any isWordChar = false := by
    cases neighbour with
    | none => rfl
    | some d => exact hopen d rfl
  simp [isWordBoundary, hneighbour, hc]

/-- A keyword occurs where no word character is next to it. -/
theorem isPlace_of_open {keyword before after : List Char} (hbefore : EndsOpen before) (hafter : StartsOpen after) :
    IsPlace keyword (before ++ (keyword ++ after)) before.length :=
  ⟨before, after, rfl, rfl, fun _ _ hedge => (isWordBoundary_of_open (isWordChar_of_isIdChar hedge) hbefore).1,
    fun _ _ hedge => (isWordBoundary_of_open (isWordChar_of_isIdChar hedge) hafter).2⟩

/-- A keyword is found in every line that it stands in. -/
theorem isSome_find?_of_standsIn {word line : List Char} (hne : word ≠ []) (h : StandsIn word line) :
    (find? word line).isSome = true := by
  obtain ⟨before, after, rfl, hbefore, hafter⟩ := h
  rw [Option.isSome_iff_ne_none, Ne, find?_eq_none_iff hne]
  exact fun hnone => hnone _ (isPlace_of_open hbefore hafter)

end Keyword

end Whiteboard.Text
