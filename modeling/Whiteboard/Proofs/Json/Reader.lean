import Whiteboard.Json.Reader
import Whiteboard.Proofs.Json.Token

/-!
# What is written is read back

A proper value is read back from its text in either style (`parse?_compact`, `parse?_pretty`). Between the two stands the list
of its tokens: the text spells them (`spells_write`), and they are put together to the value (`build?_tokens`).
-/

namespace Whiteboard.Json

open Token (Cut EndsNumeral Spells)

/-! ## Proper values -/

mutual

/-- A value whose numerals are proper and in which no text is broken. -/
def IsProper : Json → Prop
  | null | bool _ | string _ => True
  | brokenString => False
  | number n => n.IsProper
  | array items => AreProper items
  | object members => AreProperMembers members

/-- Every item is proper. -/
def AreProper : List Json → Prop
  | [] => True
  | item :: items => IsProper item ∧ AreProper items

/-- Every member is proper, its name included. -/
def AreProperMembers : List (Option String × Json) → Prop
  | [] => True
  | (name?, value) :: members => name?.isSome = true ∧ IsProper value ∧ AreProperMembers members

end

/-! ## Tokens -/

mutual

/-- The tokens of a value. -/
def tokens : Json → List Token
  | null => [.null]
  | bool b => [.bool b]
  | number n => [.number n]
  | string s => [.string (some s)]
  | brokenString => [.string none]
  | array [] => [.openBracket, .closeBracket]
  | array (item :: items) => .openBracket :: (tokens item ++ (itemTokens items ++ [.closeBracket]))
  | object [] => [.openBrace, .closeBrace]
  | object ((name?, value) :: members) =>
    .openBrace :: .string name? :: .colon :: (tokens value ++ (memberTokens members ++ [.closeBrace]))

/-- The tokens of further items. -/
def itemTokens : List Json → List Token
  | [] => []
  | item :: items => .comma :: (tokens item ++ itemTokens items)

/-- The tokens of further members. -/
def memberTokens : List (Option String × Json) → List Token
  | [] => []
  | (name?, value) :: members => .comma :: .string name? :: .colon :: (tokens value ++ memberTokens members)

end

/-! ## Putting tokens together -/

/-- An item may be the first one, since its first token is no closing bracket. -/
theorem build?_firstItem (outer : List Open) (rest : List Token) (v : Json) :
    build? outer .firstItem (tokens v ++ rest) = build? (.items [] :: outer) .value (tokens v ++ rest) := by
  cases v with
  | array items => cases items <;> simp [tokens, build?]
  | object members => cases members <;> simp [tokens, build?]
  | _ => simp [tokens, build?]

mutual

/-- The tokens of a value are put together to the value. -/
theorem build?_tokens (outer : List Open) (rest : List Token) : (v : Json) →
    build? outer .value (tokens v ++ rest) = build? outer (.after v) rest
  | null | bool _ | number _ | string _ | brokenString | array [] | object [] => by simp [tokens, build?, ofToken?]
  | array (item :: items) => by
    rw [tokens, List.cons_append, List.append_assoc, build?, build?_firstItem, build?_tokens _ _ item, List.append_assoc,
      List.singleton_append, build?_itemTokens, List.reverse_singleton, List.singleton_append]
  | object ((name?, value) :: members) => by
    rw [tokens, List.cons_append, List.cons_append, List.cons_append, List.append_assoc, build?, build?, build?,
      build?_tokens _ _ value, List.append_assoc, List.singleton_append, build?_memberTokens, List.reverse_singleton,
      List.singleton_append]

/-- Further items are added to those that have been read. -/
theorem build?_itemTokens (outer : List Open) (rest : List Token) (done : List Json) (v : Json) : (items : List Json) →
    build? (.items done :: outer) (.after v) (itemTokens items ++ .closeBracket :: rest) =
      build? outer (.after (.array ((v :: done).reverse ++ items))) rest
  | [] => by rw [itemTokens, List.nil_append, build?, List.append_nil]
  | item :: items => by
    rw [itemTokens, List.cons_append, List.append_assoc, build?, build?_tokens _ _ item, build?_itemTokens _ _ _ _ items,
      List.reverse_cons, List.append_assoc, List.singleton_append]

/-- Further members are added to those that have been read. -/
theorem build?_memberTokens (outer : List Open) (rest : List Token) (done : List (Option String × Json))
    (name? : Option String) (v : Json) : (members : List (Option String × Json)) →
    build? (.members done name? :: outer) (.after v) (memberTokens members ++ .closeBrace :: rest) =
      build? outer (.after (.object (((name?, v) :: done).reverse ++ members))) rest
  | [] => by rw [memberTokens, List.nil_append, build?, List.append_nil]
  | (name?', value) :: members => by
    rw [memberTokens, List.cons_append, List.cons_append, List.cons_append, List.append_assoc, build?, build?, build?,
      build?_tokens _ _ value, build?_memberTokens _ _ _ _ _ members, List.reverse_cons, List.append_assoc,
      List.singleton_append]

end

/-! ## Texts -/

variable {style : Style} {depth : Nat}

/-- A line break is made of spaces. -/
theorem isSpace_of_mem_lineBreak {c : Char} (hc : c ∈ style.lineBreak depth) : Token.isSpace c = true := by
  cases style with
  | compact => exact absurd hc List.not_mem_nil
  | pretty =>
    rcases List.mem_cons.1 hc with rfl | hc
    · rfl
    · rw [(List.mem_replicate.1 hc).2]
      rfl

/-- A numeral ends at a line break, or where what follows would end it. -/
theorem endsNumeral_lineBreak {rest : List Char} (h : EndsNumeral rest) : EndsNumeral (style.lineBreak depth ++ rest) := by
  cases style with
  | compact => exact h
  | pretty =>
    rintro c ⟨⟩
    rfl

/-- A numeral ends at a character that does not continue it. -/
theorem endsNumeral_cons {c : Char} (hc : Token.continuesNumeral c = false) (rest : List Char) : EndsNumeral (c :: rest) := by
  rintro d ⟨⟩
  exact hc

/-- A numeral ends before further items. -/
theorem endsNumeral_writeItems {rest : List Char} (h : EndsNumeral rest) (items : List Json) :
    EndsNumeral (writeItems style depth items ++ rest) := by
  cases items with
  | nil => rwa [writeItems]
  | cons item items =>
    rw [writeItems]
    exact endsNumeral_cons rfl _

/-- A numeral ends before further members. -/
theorem endsNumeral_writeMembers {rest : List Char} (h : EndsNumeral rest) (members : List (Option String × Json)) :
    EndsNumeral (writeMembers style depth members ++ rest) := by
  cases members with
  | nil => rwa [writeMembers]
  | cons member members =>
    rw [writeMembers]
    exact endsNumeral_cons rfl _

/-- A line break between tokens is passed over. -/
theorem cut_lineBreak {rest : List Char} {more : List Token} (h : Cut rest more) :
    Cut (style.lineBreak depth ++ rest) more :=
  h.spaces fun _ hc => isSpace_of_mem_lineBreak hc

/-- A colon is a token, with or without a space behind it. -/
theorem cut_colon {rest : List Char} {more : List Token} (h : Cut rest more) : Cut (style.colon ++ rest) (.colon :: more) := by
  cases style with
  | compact => exact h.token rfl rfl (Nat.le_refl _)
  | pretty => exact Cut.token rfl rfl (Nat.le_refl _) (h.space rfl)

/-- A name, the colon after it and a value. -/
theorem cut_member {name? : Option String} (hname : name?.isSome = true) {rest : List Char} {more : List Token}
    (h : Cut rest more) : Cut (quoteName name? ++ (style.colon ++ rest)) (.string name? :: .colon :: more) := by
  obtain ⟨name, rfl⟩ := Option.isSome_iff_exists.1 hname
  exact (cut_colon h).quote name

mutual

/-- The text of a proper value spells its tokens. -/
theorem spells_write (style : Style) (depth : Nat) : (v : Json) → v.IsProper → Spells (write style depth v) (tokens v)
  | null, _ => Token.spells_of_read? rfl fun _ _ => rfl
  | bool true, _ => Token.spells_of_read? rfl fun _ _ => rfl
  | bool false, _ => Token.spells_of_read? rfl fun _ _ => rfl
  | number n, h => by
    rw [write, tokens]
    exact Token.spells_text h
  | string s, _ => by
    rw [write, tokens]
    exact fun _ _ _ hcut => hcut.quote s
  | brokenString, h => h.elim
  | array [], _ => by
    intro rest more _ hcut
    exact Cut.token rfl rfl (Nat.le_refl _) (hcut.token rfl rfl (Nat.le_refl _))
  | array (item :: items), h => by
    intro rest more _ hcut
    rw [write, tokens]
    simp only [List.cons_append, List.append_assoc, List.nil_append]
    have hends : EndsNumeral (style.lineBreak depth ++ ']' :: rest) := endsNumeral_lineBreak (endsNumeral_cons rfl rest)
    have hitems := spells_writeItems style (depth + 1) items h.2 _ _ hends (cut_lineBreak (hcut.token rfl rfl (Nat.le_refl _)))
    have hitem := spells_write style (depth + 1) item h.1 _ _ (endsNumeral_writeItems hends items) hitems
    exact (cut_lineBreak hitem).token rfl rfl (Nat.le_refl _)
  | object [], _ => by
    intro rest more _ hcut
    exact Cut.token rfl rfl (Nat.le_refl _) (hcut.token rfl rfl (Nat.le_refl _))
  | object ((name?, value) :: members), h => by
    intro rest more _ hcut
    rw [write, tokens]
    simp only [List.cons_append, List.append_assoc, List.nil_append]
    have hends : EndsNumeral (style.lineBreak depth ++ '\x7d' :: rest) := endsNumeral_lineBreak (endsNumeral_cons rfl rest)
    have hmembers :=
      spells_writeMembers style (depth + 1) members h.2.2 _ _ hends (cut_lineBreak (hcut.token rfl rfl (Nat.le_refl _)))
    have hvalue := spells_write style (depth + 1) value h.2.1 _ _ (endsNumeral_writeMembers hends members) hmembers
    exact (cut_lineBreak (cut_member h.1 hvalue)).token rfl rfl (Nat.le_refl _)

/-- What is written for further items is their tokens. -/
theorem spells_writeItems (style : Style) (depth : Nat) : (items : List Json) → AreProper items →
    Spells (writeItems style depth items) (itemTokens items)
  | [], _ => fun _ _ _ hcut => hcut
  | item :: items, h => by
    intro rest more hrest hcut
    rw [writeItems, itemTokens]
    simp only [List.cons_append, List.append_assoc]
    have hitems := spells_writeItems style depth items h.2 _ _ hrest hcut
    have hitem := spells_write style depth item h.1 _ _ (endsNumeral_writeItems hrest items) hitems
    exact (cut_lineBreak hitem).token rfl rfl (Nat.le_refl _)

/-- What is written for further members is their tokens. -/
theorem spells_writeMembers (style : Style) (depth : Nat) : (members : List (Option String × Json)) →
    AreProperMembers members → Spells (writeMembers style depth members) (memberTokens members)
  | [], _ => fun _ _ _ hcut => hcut
  | (name?, value) :: members, h => by
    intro rest more hrest hcut
    rw [writeMembers, memberTokens]
    simp only [List.cons_append, List.append_assoc]
    have hmembers := spells_writeMembers style depth members h.2.2 _ _ hrest hcut
    have hvalue := spells_write style depth value h.2.1 _ _ (endsNumeral_writeMembers hrest members) hmembers
    exact (cut_lineBreak (cut_member h.1 hvalue)).token rfl rfl (Nat.le_refl _)

end

/-- A proper value is read back from its text. -/
theorem parse?_write (style : Style) {v : Json} (h : v.IsProper) : parse? (String.ofList (write style 0 v)) = some v := by
  have hbuild := build?_tokens [] [] v
  rw [List.append_nil] at hbuild
  rw [parse?, (spells_write style 0 v h).cut.ofText?, Option.bind_some, hbuild, build?]

/-- A proper value is read back from its compact form. -/
theorem parse?_compact {v : Json} (h : v.IsProper) : parse? v.compact = some v := parse?_write .compact h

/-- A proper value is read back from its indented form. -/
theorem parse?_pretty {v : Json} (h : v.IsProper) : parse? v.pretty = some v := parse?_write .pretty h

end Whiteboard.Json
