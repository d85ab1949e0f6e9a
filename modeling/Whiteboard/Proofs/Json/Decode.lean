import Whiteboard.Json.Decode
import Whiteboard.Proofs.Json.Reader
import Whiteboard.Proofs.Number.Shortest

/-!
# Decoding what was encoded

Each encoder gives a proper value, and each decoder takes the value back to what it was made from. Single precision numbers are
the exception: one that is not finite is encoded as null, which is decoded to nothing (`toSingle?_single`).
-/

namespace Whiteboard.Json

/-! ## Proper values -/

/-- Items are proper if each of them is. -/
theorem areProper_iff {items : List Json} : AreProper items ↔ ∀ item ∈ items, item.IsProper := by
  induction items with
  | nil => simp [AreProper]
  | cons item items ih => rw [AreProper, ih, List.forall_mem_cons]

@[simp] theorem isProper_bool (b : Bool) : (bool b).IsProper := trivial

@[simp] theorem isProper_string (s : String) : (string s).IsProper := trivial

/-- Proper values make a proper list. -/
theorem isProper_list {encode : α → Json} {items : List α} (h : ∀ a ∈ items, (encode a).IsProper) :
    (list encode items).IsProper := by
  rw [list, IsProper, areProper_iff]
  exact List.forall_mem_map.2 h

/-- Proper members make a proper record. -/
theorem isProper_record {members : List (String × Json)} (h : ∀ m ∈ members, m.2.IsProper) : (record members).IsProper := by
  rw [record, IsProper]
  induction members with
  | nil => trivial
  | cons m members ih =>
    rw [List.map_cons, AreProperMembers]
    exact ⟨rfl, h m List.mem_cons_self, ih fun m' hm' => h m' (List.mem_cons_of_mem _ hm')⟩

@[simp] theorem isProper_option_string (value? : Option String) : (option string value?).IsProper := by
  cases value? <;> trivial

/-- A number of single precision is proper, whatever it is. -/
@[simp] theorem isProper_single (x : Float32) : (single x).IsProper := by
  rw [single]
  cases h : Shortest.numeral? x with
  | none => trivial
  | some n => exact (Shortest.toSingle?_numeral? h).1

@[simp] theorem isProper_int (n : Int) : (int n).IsProper := Numeral.isProper_ofInt n

/-! ## Numbers -/

/-- A finite number is taken back, any other is lost. -/
theorem toSingle?_single (x : Float32) : (single x).toSingle? = if x.isFinite then some x else none := by
  rw [← Shortest.isSome_numeral?, single]
  cases h : Shortest.numeral? x with
  | none => rfl
  | some n => exact (Shortest.toSingle?_numeral? h).2

/-- A whole number between bounds is read within these. -/
theorem toIntWithin?_ofInt {lo hi n : Int} (hlo : lo ≤ n) (hhi : n ≤ hi) : (Numeral.ofInt n).toIntWithin? lo hi = some n := by
  rw [Numeral.toIntWithin?, Numeral.toInt?_ofInt, Option.filter_some, if_pos (by simp [hlo, hhi])]

/-- A number of 32 bits is read back. -/
theorem toInt32?_int {n : Int} (hlo : -2147483648 ≤ n) (hhi : n ≤ 2147483647) : (int n).toInt32? = some n :=
  toIntWithin?_ofInt hlo hhi

/-- A natural number is read back as a word that is wide enough. -/
theorem toWord?_nat {bits n : Nat} (h : n ≤ maxWord bits) : (nat n).toWord? bits = some n := by
  have hwithin : (Numeral.ofInt n).toIntWithin? 0 (maxWord bits) = some (n : Int) :=
    toIntWithin?_ofInt (Int.natCast_nonneg n) (Int.ofNat_le.2 h)
  rw [nat, int, toWord?, toNumeral?, Option.bind_some, hwithin, Option.map_some, Int.toNat_natCast]

/-- What is decoded lies within the bounds. -/
theorem toInt32?_bounds {j : Json} {n : Int} (h : j.toInt32? = some n) : -2147483648 ≤ n ∧ n ≤ 2147483647 := by
  obtain ⟨numeral, -, hn⟩ := Option.bind_eq_some_iff.1 h
  have hwithin := (Option.filter_eq_some_iff.1 hn).2
  simpa using hwithin

/-! ## Lists, options and records -/

/-- What is decoded after a part that may be lost. -/
theorem bind_ite_none {p : Prop} [Decidable p] (a : α) (f : α → Option β) :
    (if p then some a else none).bind f = if p then f a else none := by
  split <;> rfl

/-- A list is taken back if each of its items is. -/
theorem toList?_list {decode : Json → Option α} {encode : α → Json} {ok : α → Bool} {items : List α}
    (h : ∀ a ∈ items, decode (encode a) = if ok a then some a else none) :
    (list encode items).toList? decode = if items.all ok then some items else none := by
  rw [list, toList?]
  induction items with
  | nil => rfl
  | cons a items ih =>
    have hitems := ih fun b hb => h b (List.mem_cons_of_mem _ hb)
    rw [List.map_cons, List.mapM_cons, h a List.mem_cons_self, hitems, List.all_cons]
    cases ok a with
    | false => rfl
    | true =>
      rw [if_pos rfl, Bool.true_and]
      split <;> rfl

/-- A list is read back if each of its items is. -/
theorem toList?_list_of_some {decode : Json → Option α} {encode : α → Json} {items : List α}
    (h : ∀ a ∈ items, decode (encode a) = some a) : (list encode items).toList? decode = some items := by
  rw [toList?_list fun a ha => (h a ha).trans (if_pos (rfl : (fun _ => true) a = true)).symm, if_pos (by simp)]

/-- Every item of a list that is decoded comes from a value. -/
theorem exists_of_mem_toList? {decode : Json → Option α} {j : Json} {items : List α} (h : j.toList? decode = some items) {a : α}
    (ha : a ∈ items) : ∃ value, decode value = some a := by
  cases j with
  | array values =>
    rw [toList?] at h
    induction values generalizing items with
    | nil =>
      cases h
      exact absurd ha List.not_mem_nil
    | cons value values ih =>
      simp only [List.mapM_cons, Option.bind_eq_bind, Option.bind_eq_some_iff, Option.pure_def, Option.some.injEq] at h
      obtain ⟨b, hb, rest, hrest, rfl⟩ := h
      rcases List.mem_cons.1 ha with rfl | ha
      · exact ⟨value, hb⟩
      · exact ih ha hrest
  | _ => exact absurd h nofun

/-- A text that may be missing is read back. -/
theorem toOption?_string (value? : Option String) : (option string value?).toOption? toText? = some value? := by
  cases value? <;> rfl

/-- The member with a name is the first with this name. -/
theorem memberNamed?_record (name : String) (members : List (String × Json)) :
    memberNamed? name (members.map fun (name, value) => (some name, value)) = members.lookup name := by
  induction members with
  | nil => rfl
  | cons m members ih =>
    by_cases hm : m.1 = name
    · simp [memberNamed?, List.lookup, hm]
    · have hne : (name == m.1) = false := beq_eq_false_iff_ne.2 (Ne.symm hm)
      rw [List.lookup, hne, ← ih]
      simp [memberNamed?, hm]

namespace Fields

/-- The fields of a record that was encoded. -/
def ofMembers (members : List (String × Json)) : Fields := ⟨fun name => members.lookup name, false⟩

@[simp] theorem field?_nil (name : String) : (ofMembers []).field? name = none := rfl

@[simp] theorem field?_head (name : String) (value : Json) (members : List (String × Json)) :
    (ofMembers ((name, value) :: members)).field? name = some value :=
  List.lookup_cons_self

@[simp] theorem field?_tail {name other : String} (h : name ≠ other) (value : Json) (members : List (String × Json)) :
    (ofMembers ((other, value) :: members)).field? name = (ofMembers members).field? name := by
  simp only [ofMembers, List.lookup, beq_eq_false_iff_ne.2 h]

@[simp] theorem positional_ofMembers (members : List (String × Json)) : (ofMembers members).positional = false := rfl

end Fields

/-- The fields of a record are its members by name. -/
theorem toFields?_record (names : List String) {members : List (String × Json)} (h : (members.map Prod.fst).Nodup) :
    (record members).toFields? names = some (.ofMembers members) := by
  have hproper : (members.map fun (name, value) => (some name, value)).all (·.1.isSome) = true := by
    simp
  have honce (name : String) :
      ((members.map fun (name, value) => (some name, value)).filter fun m => m.1 == some name).length ≤ 1 := by
    have hcount := List.nodup_iff_count_le_one.1 h name
    rw [List.count, List.countP_map] at hcount
    rw [← List.countP_eq_length_filter, List.countP_map]
    exact hcount
  rw [record, toFields?, if_pos]
  · simp only [memberNamed?_record]
    rfl
  · rw [hproper, Bool.true_and, List.all_eq_true]
    exact fun name _ => decide_eq_true (honce name)

end Whiteboard.Json
