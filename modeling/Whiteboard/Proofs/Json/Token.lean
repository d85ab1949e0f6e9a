import Whiteboard.Json.Writer
import Whiteboard.Json.Token
import Whiteboard.Proofs.Number.Decimal
import Whiteboard.Proofs.Text

/-!
# Tokens are read back

`Cut s tokens` says that the text `s` is cut into the tokens, and `Spells s tokens` that it is so whatever follows, unless it
goes on like a numeral. Both are put together from parts, so a text is read part by part.
-/

namespace Whiteboard.Json

open Text

namespace Token

/-! ## Numerals -/

/-- A character that a numeral may go on with. -/
def continuesNumeral (c : Char) : Bool := c.isDigit || c == '.' || c == 'e' || c == 'E'

/-- A text that does not go on with a numeral. -/
def EndsNumeral (rest : List Char) : Prop := ∀ c ∈ rest.head?, continuesNumeral c = false

/-- Behind a numeral there is neither a digit nor a point nor an exponent. -/
theorem EndsNumeral.stops {rest : List Char} (h : EndsNumeral rest) :
    ∀ c ∈ rest.head?, c.isDigit = false ∧ c ≠ '.' ∧ c ≠ 'e' ∧ c ≠ 'E' := by
  intro c hc
  have hcontinues := h c hc
  simp only [continuesNumeral, Bool.or_eq_false_iff, beq_eq_false_iff_ne] at hcontinues
  obtain ⟨⟨⟨hdigit, hpoint⟩, hlower⟩, hupper⟩ := hcontinues
  exact ⟨hdigit, hpoint, hlower, hupper⟩

/-- Without a point there is no fraction. -/
theorem readFraction?_of_ne {rest : List Char} (h : ∀ c ∈ rest.head?, c ≠ '.') : readFraction? rest = some ([], rest) := by
  cases rest with
  | nil => rfl
  | cons c rest =>
    unfold readFraction?
    split
    · rename_i heq
      exact absurd (List.cons.inj heq).1 (h c rfl)
    · rfl

/-- Behind a point there has to be a digit. -/
theorem readFraction?_point (rest : List Char) :
    readFraction? ('.' :: rest) =
      if (rest.takeWhile Char.isDigit).isEmpty then none
      else some (rest.takeWhile Char.isDigit, rest.drop (rest.takeWhile Char.isDigit).length) :=
  rfl

/-- A fraction is read back. -/
theorem readFraction?_digits {digits rest : List Char} (hdigits : ∀ c ∈ digits, c.isDigit = true) (hne : digits ≠ [])
    (hrest : ∀ c ∈ rest.head?, c.isDigit = false) : readFraction? ('.' :: (digits ++ rest)) = some (digits, rest) := by
  simp only [readFraction?_point, takeWhile_append_stop hdigits hrest, List.isEmpty_eq_false_iff.2 hne, List.drop_left]
  rfl

/-- Without its letter there is no exponent. -/
theorem readExponent?_of_ne {rest : List Char} (h : ∀ c ∈ rest.head?, c ≠ 'e' ∧ c ≠ 'E') :
    readExponent? rest = some (none, rest) := by
  cases rest with
  | nil => rfl
  | cons c rest =>
    obtain ⟨hlower, hupper⟩ := h c rfl
    simp [readExponent?, hlower, hupper]

/-- The text of an exponent. -/
def exponentText (e : Int) : List Char := 'e' :: (if e < 0 then '-' else '+') :: digitsOfNat e.natAbs

/-- An exponent is read back. -/
theorem readExponent?_text (e : Int) {rest : List Char} (hrest : ∀ c ∈ rest.head?, c.isDigit = false) :
    readExponent? (exponentText e ++ rest) = some (some e, rest) := by
  have hdigits : (digitsOfNat e.natAbs ++ rest).takeWhile Char.isDigit = digitsOfNat e.natAbs :=
    takeWhile_append_stop (fun c hc => isDigit_of_mem_digitsOfNat hc) hrest
  have hne : (digitsOfNat e.natAbs).isEmpty = false :=
    List.isEmpty_eq_false_iff.2 (List.ne_nil_of_length_pos (length_digitsOfNat_pos _))
  by_cases he : e < 0
  · simp only [exponentText, if_pos he, List.cons_append, readExponent?]
    simp [hdigits, hne, abs_of_neg he]
  · simp only [exponentText, if_neg he, List.cons_append, readExponent?]
    simp [hdigits, hne, abs_of_nonneg (not_lt.1 he)]

/-- An exponent is read if there is one. -/
theorem readExponent?_elim (e? : Option Int) {rest : List Char} (hrest : EndsNumeral rest) :
    readExponent? (e?.elim [] exponentText ++ rest) = some (e?, rest) := by
  cases e? with
  | none => exact readExponent?_of_ne fun c hc => (hrest.stops c hc).2.2
  | some e => exact readExponent?_text e fun c hc => (hrest.stops c hc).1

/-- The text of a fraction. -/
def fractionText (fraction : List Char) : List Char := if fraction.isEmpty then [] else '.' :: fraction

/-- A fraction is read if there is one. -/
theorem readFraction?_text {fraction rest : List Char} (hdigits : ∀ c ∈ fraction, c.isDigit = true)
    (hrest : ∀ c ∈ rest.head?, c.isDigit = false ∧ c ≠ '.') :
    readFraction? (fractionText fraction ++ rest) = some (fraction, rest) := by
  rw [fractionText]
  split
  · rename_i hempty
    rw [List.isEmpty_iff.1 hempty]
    exact readFraction?_of_ne fun c hc => (hrest c hc).2
  · rename_i hne
    rw [List.isEmpty_iff] at hne
    exact readFraction?_digits hdigits hne fun c hc => (hrest c hc).1

/-- A numeral is written as its sign, its whole part, its fraction and its exponent. -/
theorem toList_text (n : Numeral) : n.text.toList =
    (if n.negative then ['-'] else []) ++ (n.whole ++ (fractionText n.fraction ++ n.exponent?.elim [] exponentText)) := by
  have hsign : (if n.negative then "-" else "").toList = if n.negative then ['-'] else [] := by
    split <;> rfl
  have hfraction : (if n.fraction.isEmpty then "" else "." ++ String.ofList n.fraction).toList = fractionText n.fraction := by
    rw [fractionText]
    split
    · rfl
    · rw [String.toList_append]
      exact congrArg ('.' :: ·) String.toList_ofList
  have hexponent : (n.exponent?.elim "" fun e => (if e < 0 then "e-" else "e+") ++ toString e.natAbs).toList =
      n.exponent?.elim [] exponentText := by
    cases n.exponent? with
    | none => rfl
    | some e =>
      rw [Option.elim_some, Option.elim_some, String.toList_append, exponentText]
      split <;> rfl
  rw [Numeral.text, String.toList_append, String.toList_append, String.toList_append, hsign, hfraction, hexponent,
    String.toList_ofList, List.append_assoc, List.append_assoc]

/-- A numeral is read after its sign. -/
theorem readNumeral?_text {n : Numeral} (hn : n.IsProper) {rest : List Char} (hrest : EndsNumeral rest) :
    readNumeral? n.negative (n.whole ++ (fractionText n.fraction ++ (n.exponent?.elim [] exponentText ++ rest))) =
      some (n, rest) := by
  have hexponent := readExponent?_elim n.exponent? hrest
  have hmiddle : ∀ c ∈ (n.exponent?.elim [] exponentText ++ rest).head?, c.isDigit = false ∧ c ≠ '.' := by
    cases n.exponent? with
    | none => exact fun c hc => ⟨(hrest.stops c hc).1, (hrest.stops c hc).2.1⟩
    | some e =>
      rintro c ⟨⟩
      exact ⟨rfl, by decide⟩
  have hfraction := readFraction?_text (fun c hc => hn.digits c (List.mem_append_right _ hc)) hmiddle
  have hdigits : (n.whole ++ (fractionText n.fraction ++ (n.exponent?.elim [] exponentText ++ rest))).takeWhile Char.isDigit =
      n.whole := by
    refine takeWhile_append_stop (fun c hc => hn.digits c (List.mem_append_left _ hc)) ?_
    rw [fractionText]
    split
    · exact fun c hc => (hmiddle c hc).1
    · rintro c ⟨⟩
      rfl
  have hwhole : (if (n.whole.head? == some '0') = true then ['0'] else n.whole) = n.whole := by
    split
    · rename_i hzero
      exact (hn.zero (beq_iff_eq.1 hzero)).symm
    · rfl
  simp only [readNumeral?, hdigits, hwhole, List.isEmpty_eq_false_iff.2 hn.whole, Bool.false_eq_true, if_false, List.drop_left,
    hfraction, hexponent, Option.bind_eq_bind, Option.bind_some, Option.pure_def]

/-- A minus sign begins a numeral. -/
theorem read?_minus (rest : List Char) :
    read? ('-' :: rest) = (readNumeral? true rest).map fun (n, rest) => (number n, rest) :=
  rfl

/-- A digit begins a numeral. -/
theorem read?_of_isDigit {c : Char} (hc : c.isDigit = true) (s : List Char) :
    read? (c :: s) = (readNumeral? false (c :: s)).map fun (n, rest) => (number n, rest) := by
  have hne {d : Char} {rest : List Char} (hd : d.isDigit = false) : c :: s ≠ d :: rest := by
    rintro ⟨⟩
    exact Bool.false_ne_true (hd.symm.trans hc)
  rw [read?]
  all_goals
    intro rest h
    exact hne rfl h

/-- A numeral is read as a token. -/
theorem read?_text {n : Numeral} (hn : n.IsProper) {rest : List Char} (hrest : EndsNumeral rest) :
    read? (n.text.toList ++ rest) = some (number n, rest) := by
  have hread := readNumeral?_text hn hrest
  rw [toList_text]
  simp only [List.append_assoc]
  cases hsign : n.negative with
  | true =>
    rw [hsign] at hread
    rw [if_pos rfl, List.singleton_append, read?_minus, hread, Option.map_some]
  | false =>
    rw [hsign] at hread
    obtain ⟨c, digits, hwhole⟩ := List.exists_cons_of_ne_nil hn.whole
    have hc : c.isDigit = true := hn.digits c (by rw [hwhole]; simp)
    rw [hwhole, List.cons_append] at hread
    rw [if_neg Bool.false_ne_true, List.nil_append, hwhole, List.cons_append, read?_of_isDigit hc, hread, Option.map_some]

/-! ## Strings -/

/-- A hexadecimal digit has its value. -/
theorem hexValue?_hexDigit : ∀ n < 16, hexValue? (hexDigit n) = some n := by
  decide

/-- A quote ends a string. -/
theorem readString?_quote (rest : List Char) : readString? ('"' :: rest) = some ([], rest) := rfl

/-- Four hexadecimal digits stand for a unit. -/
theorem readString?_digits (a b c d : Char) (rest : List Char) :
    readString? ('\\' :: 'u' :: a :: b :: c :: d :: rest) =
      match hexUnit? a b c d, readString? rest with
      | some unit, some (units, rest) => some (unit :: units, rest)
      | _, _ => none :=
  rfl

/-- A letter behind a backslash stands for its character. -/
theorem readString?_letter {letter c : Char} (hletter : letter ≠ 'u') (h : escaped? letter = some c) (s : List Char) :
    readString? ('\\' :: letter :: s) = (readString? s).map fun (units, rest) => (c.toNat :: units, rest) := by
  rw [readString?]
  · rw [h]
    cases readString? s <;> rfl
  · rintro - - - - - rfl
    exact absurd rfl hletter

/-- A control character is written in hexadecimal digits and read back. -/
theorem readString?_unit {n : Nat} (hn : n < 0x20) (s : List Char) :
    readString? (['\\', 'u', '0', '0', hexDigit (n / 16), hexDigit (n % 16)] ++ s) =
      (readString? s).map fun (units, rest) => (n :: units, rest) := by
  have hunit : hexUnit? '0' '0' (hexDigit (n / 16)) (hexDigit (n % 16)) = some n := by
    have hzero : hexValue? '0' = some 0 := rfl
    rw [hexUnit?, hzero, hexValue?_hexDigit _ (by omega), hexValue?_hexDigit _ (by omega)]
    simp
    omega
  simp only [List.cons_append, List.nil_append, readString?_digits, hunit]
  cases readString? s <;> rfl

/-- A character that is written is read. -/
theorem readString?_escapeChar (c : Char) (s : List Char) :
    readString? (escapeChar c ++ s) = (readString? s).map fun (units, rest) => (c.toNat :: units, rest) := by
  unfold escapeChar
  split
  case h_8 hquote hslash _ _ _ _ _ =>
    split
    · rename_i hcontrol
      exact readString?_unit hcontrol s
    · rename_i hplain
      have hstop : (decide (c.toNat < 0x20) || c == '\\') = false := by simpa using ⟨not_lt.1 hplain, hslash⟩
      rw [List.singleton_append, readString?, hstop, if_neg Bool.false_ne_true]
      · exact hquote
      · exact fun _ _ _ _ _ hc _ => hslash hc
      · exact fun _ _ hc _ => hslash hc
  all_goals exact readString?_letter (by decide) rfl s

/-- An escaped text is read back up to its closing quote. -/
theorem readString?_escaped (s : List Char) (rest : List Char) :
    readString? (s.flatMap escapeChar ++ '"' :: rest) = some (s.map Char.toNat, rest) := by
  induction s with
  | nil => rw [List.flatMap_nil, List.nil_append, readString?_quote, List.map_nil]
  | cons c s ih => rw [List.flatMap_cons, List.append_assoc, readString?_escapeChar, ih, Option.map_some, List.map_cons]

/-- No character is a surrogate. -/
theorem not_surrogate (c : Char) : isHighSurrogate c.toNat = false ∧ isLowSurrogate c.toNat = false := by
  have hvalid : c.toNat < 0xD800 ∨ 0xDFFF < c.toNat ∧ c.toNat < 0x110000 := c.valid
  simp only [isHighSurrogate, isLowSurrogate, Bool.and_eq_false_iff, decide_eq_false_iff_not]
  omega

/-- The units of a text are its characters. -/
theorem textOf?_toNat (s : List Char) : textOf? (s.map Char.toNat) = some s := by
  induction s with
  | nil => rfl
  | cons c s ih =>
    obtain ⟨hhigh, hlow⟩ := not_surrogate c
    cases s with
    | nil => simp [textOf?, hhigh, hlow]
    | cons d s =>
      rw [List.map_cons, List.map_cons] at *
      simp [textOf?, hhigh, hlow, ih]

/-- A quote begins a string. -/
theorem read?_mark (rest : List Char) :
    read? ('"' :: rest) =
      (readString? rest).map fun (units, rest) => (string ((textOf? units).map String.ofList), rest) :=
  rfl

/-- A string between quotes is read as a token. -/
theorem read?_quote (s : String) (rest : List Char) : read? (quote s ++ rest) = some (string (some s), rest) := by
  have hquote : quote s ++ rest = '"' :: (s.toList.flatMap escapeChar ++ '"' :: rest) := by simp [quote]
  simp only [hquote, read?_mark, readString?_escaped, Option.map_some, textOf?_toNat, String.ofList_toList]

/-! ## Texts of tokens -/

/-- One more token is read behind spaces, if there is one. -/
theorem readAll?_succ (rounds : Nat) (s : List Char) :
    readAll? (rounds + 1) s =
      if (s.dropWhile isSpace).isEmpty then some []
      else
        match read? (s.dropWhile isSpace) with
        | none => none
        | some (token, rest) => (readAll? rounds rest).map (token :: ·) :=
  rfl

/-- The text is cut into the tokens. -/
def Cut (s : List Char) (tokens : List Token) : Prop := ∀ rounds, s.length ≤ rounds → readAll? rounds s = some tokens

theorem cut_nil : Cut [] [] := by
  rintro (_ | rounds) -
  · rfl
  · rfl

/-- A space in front does not matter. -/
theorem Cut.space {c : Char} (hc : isSpace c = true) {s : List Char} {tokens : List Token} (h : Cut s tokens) :
    Cut (c :: s) tokens := by
  rintro (_ | rounds) hrounds
  · exact absurd hrounds (Nat.not_succ_le_zero _)
  · have hs := h (rounds + 1) (Nat.le_of_succ_le hrounds)
    rw [readAll?_succ] at hs ⊢
    rwa [List.dropWhile_cons_of_pos hc]

/-- Spaces and line breaks between the tokens. -/
theorem Cut.spaces {s rest : List Char} (hs : ∀ c ∈ s, isSpace c = true) {tokens : List Token} (h : Cut rest tokens) :
    Cut (s ++ rest) tokens := by
  induction s with
  | nil => exact h
  | cons c s ih => exact (ih fun d hd => hs d (List.mem_cons_of_mem _ hd)).space (hs c List.mem_cons_self)

/-- A token in front comes first. -/
theorem Cut.token {c : Char} (hc : isSpace c = false) {s rest : List Char} {token : Token}
    (hread : read? (c :: s) = some (token, rest)) (hlength : rest.length ≤ s.length) {tokens : List Token}
    (h : Cut rest tokens) : Cut (c :: s) (token :: tokens) := by
  rintro (_ | rounds) hrounds
  · exact absurd hrounds (Nat.not_succ_le_zero _)
  · have hrest := h rounds (hlength.trans (Nat.le_of_succ_le_succ hrounds))
    rw [readAll?_succ, List.dropWhile_cons_of_neg (by simp [hc])]
    simp [hread, hrest]

/-- A text that is cut into tokens is read as these. -/
theorem Cut.ofText? {s : List Char} {tokens : List Token} (h : Cut s tokens) : ofText? (String.ofList s) = some tokens := by
  rw [Token.ofText?, String.toList_ofList]
  exact h _ (Nat.le_refl _)

/-- The text spells the tokens whatever follows, unless that goes on like a numeral. -/
def Spells (s : List Char) (tokens : List Token) : Prop :=
  ∀ rest more, EndsNumeral rest → Cut rest more → Cut (s ++ rest) (tokens ++ more)

/-- What spells tokens is cut into these. -/
theorem Spells.cut {s : List Char} {tokens : List Token} (h : Spells s tokens) : Cut s tokens := by
  have hcut := h [] [] (by rintro c ⟨⟩) cut_nil
  rwa [List.append_nil, List.append_nil] at hcut

/-- A text that is read as one token. -/
theorem spells_of_read? {c : Char} (hc : isSpace c = false) {s : List Char} {token : Token}
    (hread : ∀ rest, EndsNumeral rest → read? (c :: s ++ rest) = some (token, rest)) : Spells (c :: s) [token] := by
  intro rest more hrest hcut
  exact hcut.token hc (hread rest hrest) (by simp)

/-- A digit is no space. -/
theorem isSpace_of_isDigit {c : Char} (hc : c.isDigit = true) : isSpace c = false := by
  have hne {d : Char} (hd : d.isDigit = false) : (c == d) = false := by
    rw [beq_eq_false_iff_ne]
    rintro rfl
    exact Bool.false_ne_true (hd.symm.trans hc)
  simp only [isSpace, hne (d := ' ') rfl, hne (d := '\n') rfl, hne (d := '\t') rfl, hne (d := '\r') rfl, Bool.or_self]

/-- The text of a numeral spells one token. -/
theorem spells_text {n : Numeral} (hn : n.IsProper) : Spells n.text.toList [number n] := by
  obtain ⟨c, s, hs, hc⟩ : ∃ c s, n.text.toList = c :: s ∧ isSpace c = false := by
    rw [toList_text]
    split
    · exact ⟨'-', _, rfl, rfl⟩
    · obtain ⟨c, digits, hwhole⟩ := List.exists_cons_of_ne_nil hn.whole
      refine ⟨c, _, by rw [hwhole]; rfl, ?_⟩
      exact isSpace_of_isDigit (hn.digits c (by rw [hwhole]; simp))
  rw [hs]
  exact spells_of_read? hc fun rest hrest => by rw [← hs, read?_text hn hrest]

/-- A string is read whatever follows its closing quote. -/
theorem Cut.quote (s : String) {rest : List Char} {tokens : List Token} (h : Cut rest tokens) :
    Cut (Json.quote s ++ rest) (string (some s) :: tokens) :=
  h.token rfl (read?_quote s rest) (by simp only [List.append_eq, List.length_append]; omega)

end Token

end Whiteboard.Json
