import Whiteboard.Diagram.Label
import Whiteboard.Proofs.Text

/-!
# Written labels

What the written forms of labels hold, and that reading the written form of a label that was read before gives the label
back, with a line feed for every line break (`unifyBreaks`). A label that was read (`IsDecoded`) is trimmed and holds none of
the tokens for quotes and line breaks, so writing it spells out its quotes and line breaks and nothing else. Main statement:
writing and reading change a label once and never again (`normal_stable`).
-/

namespace Whiteboard.Label

open Text

/-- The other spelling of the token for a line break. -/
def shortBreakToken : List Char := "<br>".toList

/-! ## Line breaks -/

/-- The text with a line feed for every line break. -/
def unifyBreaks : List Char → List Char
  | [] => []
  | '\r' :: '\n' :: cs => '\n' :: unifyBreaks cs
  | c :: cs => if c = '\n' ∨ c = '\r' then '\n' :: unifyBreaks cs else c :: unifyBreaks cs

/-- A character that is no carriage return is kept. -/
theorem unifyBreaks_cons_of_ne {c : Char} (h : c ≠ '\r') (s : List Char) : unifyBreaks (c :: s) = c :: unifyBreaks s := by
  rw [unifyBreaks]
  · split
    · rename_i hc
      rw [hc.resolve_right h]
    · rfl
  · exact fun _ hc => absurd hc h

/-- A carriage return alone is a line break. -/
theorem unifyBreaks_return {s : List Char} (h : s.head? ≠ some '\n') : unifyBreaks ('\r' :: s) = '\n' :: unifyBreaks s := by
  rw [unifyBreaks, if_pos (Or.inr rfl)]
  rintro rest - rfl
  exact h rfl

/-- A carriage return and a line feed become one line feed. -/
theorem unifyBreaks_pair (s : List Char) : unifyBreaks ('\r' :: '\n' :: s) = '\n' :: unifyBreaks s := by
  rw [unifyBreaks]

/-- A text is empty, or goes on behind a line break of two characters, behind a carriage return alone or behind any other
character. -/
@[elab_as_elim]
theorem breaksRec {motive : List Char → Prop} (nil : motive [])
    (pair : ∀ cs, motive cs → motive ('\r' :: '\n' :: cs))
    (lone : ∀ cs, cs.head? ≠ some '\n' → motive cs → motive ('\r' :: cs))
    (other : ∀ c cs, c ≠ '\r' → motive cs → motive (c :: cs)) (s : List Char) : motive s := by
  induction s using unifyBreaks.induct with
  | case1 => exact nil
  | case2 cs ih => exact pair cs ih
  | case3 c cs hpair _ ih | case4 c cs hpair _ ih =>
    by_cases hc : c = '\r'
    · subst hc
      refine lone cs (fun hhead => ?_) ih
      cases cs with
      | nil => cases hhead
      | cons d ds =>
        rw [List.head?_cons, Option.some.injEq] at hhead
        exact hpair ds rfl (by rw [hhead])
    · exact other c cs hc ih

/-- Writing tokens for line breaks is spelling out the line feeds that they are. -/
theorem breaksToTokens_eq_spellOut (s : List Char) : breaksToTokens s = spellOut '\n' breakToken (unifyBreaks s) := by
  induction s using breaksToTokens.induct with
  | case1 => rfl
  | case2 cs ih => rw [breaksToTokens, unifyBreaks, spellOut_cons_self, ih]
  | case3 x cs hrn hx ih =>
    rw [breaksToTokens, unifyBreaks, if_pos hx, if_pos hx, spellOut_cons_self, ih]
    · exact hrn
    · exact hrn
  | case4 x cs hrn hx ih =>
    rw [breaksToTokens, unifyBreaks, if_neg hx, if_neg hx, spellOut_cons_of_ne (fun hn => hx (Or.inl hn)), ih]
    · exact hrn
    · exact hrn

/-- What is found once breaks are unified is a line feed or was there before. -/
theorem mem_unifyBreaks {s : List Char} {c : Char} (h : c ∈ unifyBreaks s) : c = '\n' ∨ c ∈ s ∧ c ≠ '\r' := by
  induction s using breaksRec with
  | nil => cases h
  | pair cs ih =>
    rw [unifyBreaks_pair, List.mem_cons] at h
    exact h.elim Or.inl fun h => (ih h).imp_right fun ⟨hm, hr⟩ => ⟨by simp [hm], hr⟩
  | lone cs hcs ih =>
    rw [unifyBreaks_return hcs, List.mem_cons] at h
    exact h.elim Or.inl fun h => (ih h).imp_right fun ⟨hm, hr⟩ => ⟨by simp [hm], hr⟩
  | other d cs hd ih =>
    rw [unifyBreaks_cons_of_ne hd, List.mem_cons] at h
    rcases h with rfl | h
    · exact Or.inr ⟨by simp, hd⟩
    · exact (ih h).imp_right fun ⟨hm, hr⟩ => ⟨by simp [hm], hr⟩

/-- Unifying breaks leaves no carriage return. -/
theorem return_notMem_unifyBreaks (s : List Char) : '\r' ∉ unifyBreaks s := by
  intro h
  rcases mem_unifyBreaks h with h | ⟨-, h⟩
  · exact absurd h (by decide)
  · exact h rfl

/-- A text without carriage returns stays as it is, whatever stands behind it. -/
theorem unifyBreaks_append_of_notMem {u : List Char} (hr : '\r' ∉ u) (v : List Char) :
    unifyBreaks (u ++ v) = u ++ unifyBreaks v := by
  induction u with
  | nil => rfl
  | cons c cs ih =>
    simp only [List.mem_cons, not_or] at hr
    rw [List.cons_append, unifyBreaks_cons_of_ne (Ne.symm hr.1), ih hr.2, List.cons_append]

/-- Without a carriage return there is nothing to unify. -/
theorem unifyBreaks_eq_self {s : List Char} (hr : '\r' ∉ s) : unifyBreaks s = s := by
  have happend := unifyBreaks_append_of_notMem hr []
  rwa [List.append_nil, unifyBreaks, List.append_nil] at happend

/-- A last character that is no line break stays the last. -/
theorem unifyBreaks_concat (s : List Char) {c : Char} (hn : c ≠ '\n') (hr : c ≠ '\r') :
    unifyBreaks (s ++ [c]) = unifyBreaks s ++ [c] := by
  induction s using breaksRec with
  | nil => exact unifyBreaks_cons_of_ne hr []
  | pair cs ih => rw [List.cons_append, List.cons_append, unifyBreaks_pair, ih, unifyBreaks_pair, List.cons_append]
  | lone cs hcs ih =>
    have hhead : (cs ++ [c]).head? ≠ some '\n' := by
      cases cs with
      | nil => simpa using hn
      | cons d ds => exact hcs
    rw [List.cons_append, unifyBreaks_return hhead, ih, unifyBreaks_return hcs, List.cons_append]
  | other d cs hd ih => rw [List.cons_append, unifyBreaks_cons_of_ne hd, ih, unifyBreaks_cons_of_ne hd, List.cons_append]

/-- A text without line feeds stands before a line feed only if it is empty. -/
theorem eq_nil_of_prefix_break {q s : List Char} (hq : '\n' ∉ q) (h : q <+: '\n' :: s) : q = [] := by
  cases q with
  | nil => rfl
  | cons y ys => exact absurd (by simp [(List.cons_prefix_cons.1 h).1]) hq

/-- What stands at the start with line feeds for line breaks, and holds none, stood there before. -/
theorem prefix_of_prefix_unifyBreaks {q : List Char} (hq : '\n' ∉ q) {s : List Char} (h : q <+: unifyBreaks s) : q <+: s := by
  induction s using breaksRec generalizing q with
  | nil => exact h
  | pair cs _ =>
    rw [unifyBreaks_pair] at h
    rw [eq_nil_of_prefix_break hq h]
    exact List.nil_prefix
  | lone cs hcs _ =>
    rw [unifyBreaks_return hcs] at h
    rw [eq_nil_of_prefix_break hq h]
    exact List.nil_prefix
  | other d cs hd ih =>
    rw [unifyBreaks_cons_of_ne hd] at h
    cases q with
    | nil => exact List.nil_prefix
    | cons y ys =>
      rw [List.cons_prefix_cons] at h ⊢
      exact ⟨h.1, ih (fun hm => hq (List.mem_cons_of_mem y hm)) h.2⟩

/-- What occurs with line feeds for line breaks, and holds none, occurred before. -/
theorem infix_of_infix_unifyBreaks {q : List Char} (hq : '\n' ∉ q) {s : List Char} (h : q <:+: unifyBreaks s) : q <:+: s := by
  induction s using breaksRec with
  | nil => exact h
  | pair cs ih =>
    rcases List.infix_cons_iff.1 (unifyBreaks_pair cs ▸ h) with hp | hi
    · exact (prefix_of_prefix_unifyBreaks hq (unifyBreaks_pair cs ▸ hp)).isInfix
    · exact List.infix_cons (List.infix_cons (ih hi))
  | lone cs hcs ih =>
    rcases List.infix_cons_iff.1 (unifyBreaks_return hcs ▸ h) with hp | hi
    · exact (prefix_of_prefix_unifyBreaks hq (unifyBreaks_return hcs ▸ hp)).isInfix
    · exact List.infix_cons (ih hi)
  | other d cs hd ih =>
    rcases List.infix_cons_iff.1 (unifyBreaks_cons_of_ne hd cs ▸ h) with hp | hi
    · exact (prefix_of_prefix_unifyBreaks hq (unifyBreaks_cons_of_ne hd cs ▸ hp)).isInfix
    · exact List.infix_cons (ih hi)

/-- A character that is no blank is no line break. -/
theorem ne_break_of_isBlank {c : Char} (h : isBlank c = false) : c ≠ '\n' ∧ c ≠ '\r' := by
  constructor
  · rintro rfl
    revert h
    decide
  · rintro rfl
    revert h
    decide

/-- Unifying breaks leaves a trimmed text trimmed. -/
theorem isTrimmed_unifyBreaks {s : List Char} (h : IsTrimmed s) : IsTrimmed (unifyBreaks s) := by
  constructor
  · cases s with
    | nil => simp [unifyBreaks]
    | cons c cs =>
      have hc := h.head c rfl
      rw [unifyBreaks_cons_of_ne (ne_break_of_isBlank hc).2]
      simpa using hc
  · rcases List.eq_nil_or_concat s with rfl | ⟨t, c, rfl⟩
    · simp [unifyBreaks]
    · rw [List.concat_eq_append] at h ⊢
      have hc := h.last c (by simp)
      rw [unifyBreaks_concat t (ne_break_of_isBlank hc).1 (ne_break_of_isBlank hc).2]
      simpa using hc

/-- Spelling out quotes has no part in line breaks. -/
theorem unifyBreaks_spellOut_quotes (s : List Char) :
    unifyBreaks (spellOut '"' quoteToken s) = spellOut '"' quoteToken (unifyBreaks s) := by
  induction s using breaksRec with
  | nil => rfl
  | pair cs ih =>
    rw [spellOut_cons_of_ne (by decide), spellOut_cons_of_ne (by decide), unifyBreaks_pair, ih, unifyBreaks_pair,
      spellOut_cons_of_ne (by decide)]
  | lone cs hcs ih =>
    have hhead : (spellOut '"' quoteToken cs).head? ≠ some '\n' := by
      cases cs with
      | nil => simp
      | cons d ds =>
        by_cases hd : d = '"'
        · rw [hd, spellOut_cons_self]
          change some '#' ≠ some '\n'
          decide
        · rw [spellOut_cons_of_ne hd]
          exact hcs
    rw [spellOut_cons_of_ne (by decide), unifyBreaks_return hhead, ih, unifyBreaks_return hcs,
      spellOut_cons_of_ne (by decide)]
  | other d cs hd ih =>
    rw [unifyBreaks_cons_of_ne hd]
    by_cases hquote : d = '"'
    · rw [hquote, spellOut_cons_self, spellOut_cons_self, unifyBreaks_append_of_notMem (by decide), ih]
    · rw [spellOut_cons_of_ne hquote, spellOut_cons_of_ne hquote, unifyBreaks_cons_of_ne hd, ih]

/-! ## What written labels hold -/

/-- Without line breaks there are only the characters of the text and of the break token. -/
theorem mem_breaksToTokens {s : List Char} {c : Char} (h : c ∈ breaksToTokens s) :
    c ∈ breakToken ∨ c ∈ s ∧ c ≠ '\n' ∧ c ≠ '\r' := by
  rw [breaksToTokens_eq_spellOut, spellOut, List.mem_flatMap] at h
  obtain ⟨x, hx, hc⟩ := h
  split at hc
  · exact Or.inl hc
  · rename_i hn
    rw [List.mem_singleton.1 hc]
    obtain ⟨hmem, hr⟩ := (mem_unifyBreaks hx).resolve_left hn
    exact Or.inr ⟨hmem, hn, hr⟩

/-- The form between quotes holds no quote and stands on one line. -/
theorem mem_escape {label : String} {c : Char} (h : c ∈ (escape label).toList) : c ≠ '"' ∧ c ≠ '\n' ∧ c ≠ '\r' := by
  rw [escape, String.toList_ofList] at h
  rcases mem_breaksToTokens h with h | ⟨h, hn, hr⟩
  · have hall : ∀ c ∈ breakToken, c ≠ '"' ∧ c ≠ '\n' ∧ c ≠ '\r' := List.all_iff_forall_prop.1 (by decide)
    exact hall c h
  · refine ⟨?_, hn, hr⟩
    rintro rfl
    rw [replaceAll_singleton, List.mem_flatMap] at h
    obtain ⟨x, -, hx⟩ := h
    split at hx
    · revert hx
      decide
    · rename_i hne
      simp only [List.mem_singleton] at hx
      exact hne hx.symm

/-- The form between pipes holds no pipe and stands on one line. -/
theorem mem_sanitize {label : String} {c : Char} (h : c ∈ (sanitize label).toList) :
    c ≠ '|' ∧ c ≠ '\n' ∧ c ≠ '\r' := by
  rw [sanitize, String.toList_ofList] at h
  rcases mem_breaksToTokens h with h | ⟨h, hn, hr⟩
  · have hall : ∀ c ∈ breakToken, c ≠ '|' ∧ c ≠ '\n' ∧ c ≠ '\r' := List.all_iff_forall_prop.1 (by decide)
    exact hall c h
  · refine ⟨?_, hn, hr⟩
    rintro rfl
    simpa using mem_of_mem_trim h

/-- Spelling out line feeds changes nothing at the ends of a trimmed text. -/
theorem isTrimmed_spellOut {token s : List Char} (h : IsTrimmed s) : IsTrimmed (spellOut '\n' token s) := by
  constructor
  · cases s with
    | nil => simp
    | cons c cs =>
      have hc := h.head c rfl
      rw [spellOut_cons_of_ne (ne_break_of_isBlank hc).1]
      simpa using hc
  · rcases List.eq_nil_or_concat s with rfl | ⟨t, c, rfl⟩
    · simp
    · rw [List.concat_eq_append] at h ⊢
      have hc := h.last c (by simp)
      rw [spellOut, List.flatMap_append, List.flatMap_singleton, if_neg (ne_break_of_isBlank hc).1]
      simpa using hc

/-- The form between pipes has no blank at either end. -/
theorem isTrimmed_sanitize (label : String) : IsTrimmed (sanitize label).toList := by
  rw [sanitize, String.toList_ofList, breaksToTokens_eq_spellOut]
  exact isTrimmed_spellOut (isTrimmed_unifyBreaks (isTrimmed_trim _))

/-! ## Reading a written label -/

/-- A label that was read: nothing is left to trim or to decode. -/
structure IsDecoded (s : List Char) : Prop where
  trimmed : IsTrimmed s
  quotes : ¬ quoteToken <:+: s
  breaks : ¬ breakToken <:+: s
  shortBreaks : ¬ shortBreakToken <:+: s

/-- Reading leaves nothing to trim or to decode: a later replacement puts in a line feed, which stands in no token, so it brings
no earlier token back. -/
theorem isDecoded_decodeChars (raw : List Char) : IsDecoded (decodeChars raw) := by
  refine ⟨isTrimmed_trim _, ?_, ?_, ?_⟩
  · intro h
    have h := h.trans (trim_infix_self _)
    have h := infix_of_infix_replaceAll (by decide) (infix_of_infix_replaceAll (by decide) h)
    exact not_infix_replaceAll_self (by decide) (by decide) _ h
  · intro h
    have h := infix_of_infix_replaceAll (by decide) (h.trans (trim_infix_self _))
    exact not_infix_replaceAll_self (by decide) (by decide) _ h
  · intro h
    exact not_infix_replaceAll_self (by decide) (by decide) _ (h.trans (trim_infix_self _))

/-- What replacing brings in is the new text, and the rest was there before. -/
theorem mem_of_mem_replaceAll {pat sub s : List Char} {c : Char} (h : c ∈ replaceAll pat sub s) : c ∈ sub ∨ c ∈ s := by
  induction s using replaceAll.induct pat with
  | case1 => rw [replaceAll_nil] at h; exact Or.inr h
  | case2 x xs hp ih =>
    rw [replaceAll_cons, if_pos hp, List.mem_append] at h
    rcases h with h | h
    · exact Or.inl h
    · exact (ih h).imp_right fun h => List.mem_cons_of_mem x (List.mem_of_mem_drop h)
  | case3 x xs hp ih =>
    rw [replaceAll_cons, if_neg hp, List.mem_cons] at h
    rcases h with rfl | h
    · exact Or.inr (by simp)
    · exact (ih h).imp_right (List.mem_cons_of_mem x)

/-- Reading brings in quotes and line feeds, and nothing else. -/
theorem mem_of_mem_decodeChars {raw : List Char} {c : Char} (h : c ∈ decodeChars raw) :
    c = '"' ∨ c = '\n' ∨ c ∈ raw := by
  rcases mem_of_mem_replaceAll (mem_of_mem_trim h) with h | h
  · exact Or.inr (Or.inl (by simpa using h))
  · rcases mem_of_mem_replaceAll h with h | h
    · exact Or.inr (Or.inl (by simpa using h))
    · exact (mem_of_mem_replaceAll h).imp (by simp) Or.inr

/-- A label that was read is still one with a line feed for every line break. -/
theorem IsDecoded.unifyBreaks {s : List Char} (h : IsDecoded s) : IsDecoded (unifyBreaks s) :=
  ⟨isTrimmed_unifyBreaks h.trimmed, fun hi => h.quotes (infix_of_infix_unifyBreaks (by decide) hi),
    fun hi => h.breaks (infix_of_infix_unifyBreaks (by decide) hi),
    fun hi => h.shortBreaks (infix_of_infix_unifyBreaks (by decide) hi)⟩

/-- The token for a quote holds no character of the token for a line break. -/
theorem quoteToken_disjoint_breakToken : ∀ x ∈ quoteToken, x ∉ '<' :: "br/>".toList :=
  List.all_iff_forall_prop.1 (by decide)

/-- Spelling out the line breaks of a label that was read makes no token for a quote. -/
theorem IsDecoded.quotes_spellOut_breaks {s : List Char} (h : IsDecoded s) :
    ¬ quoteToken <:+: spellOut '\n' breakToken s :=
  fun hi => h.quotes (infix_of_infix_spellOut quoteToken_disjoint_breakToken hi)

/-- Line breaks that were spelled out in a label that was read come back. -/
theorem decodeChars_spellOut_breaks {s : List Char} (h : IsDecoded s) :
    decodeChars (spellOut '\n' breakToken s) = s := by
  rw [decodeChars, replaceAll_of_not_infix h.quotes_spellOut_breaks, replaceAll_spellOut (by decide) h.breaks]
  rw [show "<br>".toList = shortBreakToken from rfl, replaceAll_of_not_infix h.shortBreaks]
  exact h.trimmed.trim_eq

/-- The form of a label between quotes, written out. -/
theorem toList_escape (label : String) :
    (escape label).toList = spellOut '\n' breakToken (spellOut '"' quoteToken (unifyBreaks label.toList)) := by
  have hquotes : replaceAll ['"'] quoteToken label.toList = spellOut '"' quoteToken label.toList := replaceAll_singleton _ _ _
  rw [escape, String.toList_ofList, hquotes, breaksToTokens_eq_spellOut, unifyBreaks_spellOut_quotes]

/-- The form of an edge label between pipes, written out, where there is nothing to trim or to leave out. -/
theorem toList_sanitize {label : String} (h : IsTrimmed label.toList) (hp : '|' ∉ label.toList) :
    (sanitize label).toList = spellOut '\n' breakToken (unifyBreaks label.toList) := by
  have hfilter : label.toList.filter (· != '|') = label.toList := by
    rw [List.filter_eq_self]
    intro c hc
    simp only [bne_iff_ne, ne_eq]
    rintro rfl
    exact hp hc
  rw [sanitize, String.toList_ofList, hfilter, h.trim_eq, breaksToTokens_eq_spellOut]

/-- A label that was read is its own normal form between quotes, but for its line breaks. -/
theorem decodeChars_escape {label : String} (h : IsDecoded label.toList) :
    decodeChars (escape label).toList = unifyBreaks label.toList := by
  have hs := h.unifyBreaks
  have hback : replaceAll quoteToken ['"'] (spellOut '"' quoteToken (spellOut '\n' breakToken (unifyBreaks label.toList))) =
      spellOut '\n' breakToken (unifyBreaks label.toList) := replaceAll_spellOut (by decide) hs.quotes_spellOut_breaks
  rw [toList_escape, spellOut_comm (by decide) (by decide) (by decide), decodeChars, hback]
  have hb := decodeChars_spellOut_breaks hs
  rwa [decodeChars, replaceAll_of_not_infix hs.quotes_spellOut_breaks] at hb

/-- An edge label that was read, without pipes, is its own normal form between pipes, but for its line breaks. -/
theorem decodeChars_sanitize {label : String} (h : IsDecoded label.toList) (hp : '|' ∉ label.toList) :
    decodeChars (sanitize label).toList = unifyBreaks label.toList := by
  rw [toList_sanitize h.trimmed hp]
  exact decodeChars_spellOut_breaks h.unifyBreaks

/-- Writing a label that was read, and writing it again when it has been read again, is the same. -/
theorem escape_decode_escape {label : String} (h : IsDecoded label.toList) : escape (decode (escape label)) = escape label := by
  have hr := return_notMem_unifyBreaks label.toList
  rw [← String.toList_inj, toList_escape, toList_escape, decode, String.toList_ofList, decodeChars_escape h,
    unifyBreaks_eq_self hr]

/-- So it is with an edge label. -/
theorem sanitize_decode_sanitize {label : String} (h : IsDecoded label.toList) (hp : '|' ∉ label.toList) :
    sanitize (decode (sanitize label)) = sanitize label := by
  have hr := return_notMem_unifyBreaks label.toList
  have hread : (decode (sanitize label)).toList = unifyBreaks label.toList := by
    rw [decode, String.toList_ofList, decodeChars_sanitize h hp]
  have hpipe : '|' ∉ (decode (sanitize label)).toList := by
    rw [hread]
    intro hmem
    exact (mem_unifyBreaks hmem).elim (by decide) fun hmem => hp hmem.1
  have htrimmed : IsTrimmed (decode (sanitize label)).toList := by
    rw [hread]
    exact h.unifyBreaks.trimmed
  rw [← String.toList_inj, toList_sanitize htrimmed hpipe, toList_sanitize h.trimmed hp, hread, unifyBreaks_eq_self hr]

/-- A label that was read, without carriage returns, is its own normal form. -/
theorem decode_escape {label : String} (h : IsDecoded label.toList) (hr : '\r' ∉ label.toList) :
    decode (escape label) = label := by
  rw [decode, decodeChars_escape h, unifyBreaks_eq_self hr, String.ofList_toList]

/-! ## Normal forms -/

/-- The label that is read where a label has been written. -/
def normal (label : String) : String := decode (escape label)

/-- Reading brings in no carriage return. -/
theorem return_notMem_decode {raw : String} (h : '\r' ∉ raw.toList) : '\r' ∉ (decode raw).toList := by
  rw [decode, String.toList_ofList]
  intro hc
  rcases mem_of_mem_decodeChars hc with hc | hc | hc
  · exact absurd hc (by decide)
  · exact absurd hc (by decide)
  · exact h hc

/-- A normal label has no carriage return. -/
theorem return_notMem_normal (label : String) : '\r' ∉ (normal label).toList :=
  return_notMem_decode fun h => (mem_escape h).2.2 rfl

/-- A decoded label without a carriage return is normal. -/
theorem normal_decode {raw : String} (hr : '\r' ∉ (decode raw).toList) : normal (decode raw) = decode raw := by
  refine decode_escape ?_ hr
  rw [decode, String.toList_ofList]
  exact isDecoded_decodeChars raw.toList

/-- What is written holds no double quote and no line break, and the normal form of a label is its own normal form. So is a
trimmed label that holds no carriage return and none of the tokens for quotes and line breaks, and any label that was read and
holds no carriage return. -/
theorem normal_stable (label : String) :
    (∀ c ∈ (escape label).toList, c ≠ '"' ∧ c ≠ '\n' ∧ c ≠ '\r') ∧
    normal (normal label) = normal label ∧
    (trim label.toList = label.toList → '\r' ∉ label.toList → ¬ "#quot;".toList <:+: label.toList →
      ¬ "<br/>".toList <:+: label.toList → ¬ "<br>".toList <:+: label.toList → normal label = label) ∧
    ∀ raw, label = decode raw → '\r' ∉ label.toList → normal label = label := by
  refine ⟨fun c hc => mem_escape hc, normal_decode (return_notMem_normal label), ?_, ?_⟩
  · intro htrim hr hquotes hbreaks hshortBreaks
    have htrimmed : IsTrimmed label.toList := htrim ▸ isTrimmed_trim label.toList
    exact decode_escape ⟨htrimmed, hquotes, hbreaks, hshortBreaks⟩ hr
  · rintro raw rfl hr
    exact normal_decode hr

/-- Pieces of tokens do not join up with the tokens beside them. -/
theorem normal_stable_pieces :
    normal "#quot\"<br\n/>#quot" = "#quot\"<br\n/>#quot" ∧
      normal (decode " <br<br/>/>\t") = decode " <br<br/>/>\t" :=
  ⟨(normal_stable "#quot\"<br\n/>#quot").2.2.1 (by decide) (by decide) (by decide) (by decide) (by decide),
    (normal_stable (decode " <br<br/>/>\t")).2.2.2 _ rfl (return_notMem_decode (by decide))⟩

end Whiteboard.Label
