import Mathlib
import Whiteboard.Number.Shortest
import Whiteboard.Proofs.Number.Decimal
import Whiteboard.Proofs.Text

/-!
# The shortest numeral is read back

Every finite single precision number is written as a numeral that is read as the same number
(`Shortest.toSingle?_numeral?`), and only what is not finite has none (`Shortest.isSome_numeral?`).

The search for the shortest decimal tries grids with more and more digits. It cannot fail, since the magnitude itself is a
decimal with fewer digits than there are tries (`Shortest.exists_decimal`).
-/

namespace Whiteboard

open Text

namespace Shortest

/-! ## The parts of a number -/

/-- A number has parts exactly if it is finite. -/
theorem isSome_parts? (x : Float32) : (parts? x).isSome = x.isFinite := by
  have hexponent : (@Float.Model.UnpackedFloat.unpackExponent .binary32 x.toBits.toBitVec).toNat =
      x.toBits.toNat / pow2 23 % pow2 8 := by
    rw [Float.Model.UnpackedFloat.unpackExponent, BitVec.toNat_cast, BitVec.extractLsb_toNat, Nat.shiftRight_eq_div_pow]
    rfl
  have hfinite : x.isFinite = (Float.Model.UnpackedFloat.unpack .binary32 x.toBits.toBitVec).isFinite := rfl
  rw [hfinite, Float.Model.UnpackedFloat.unpack]
  unfold parts?
  simp only [← hexponent]
  by_cases hones : @Float.Model.UnpackedFloat.unpackExponent .binary32 x.toBits.toBitVec = -1#8
  · have hfield : (@Float.Model.UnpackedFloat.unpackExponent .binary32 x.toBits.toBitVec).toNat = 255 :=
      congrArg BitVec.toNat hones
    rw [if_pos hfield, if_pos hones]
    split <;> rfl
  · have hfield : (@Float.Model.UnpackedFloat.unpackExponent .binary32 x.toBits.toBitVec).toNat ≠ 255 :=
      fun h => hones (BitVec.eq_of_toNat_eq h)
    rw [if_neg hfield, if_neg hones, Option.isSome_some]
    split
    · split <;> rfl
    · rfl

/-- The parts of a number are those of the format. -/
theorem holds_of_parts? {x : Float32} {negative : Bool} {m : Scaled} (h : parts? x = some (negative, m)) :
    m = ⟨0, -149⟩ ∨ BinaryFormat.single.Holds m := by
  have hfield : x.toBits.toNat / pow2 23 % pow2 8 < 256 := Nat.mod_lt _ (by decide)
  have hlow : x.toBits.toNat % pow2 23 < 8388608 := Nat.mod_lt _ (by decide)
  have hpow : pow2 23 = 8388608 := rfl
  simp only [parts?] at h
  generalize x.toBits.toNat / pow2 23 % pow2 8 = field at *
  generalize x.toBits.toNat % pow2 23 = low at *
  split at h
  · exact absurd h nofun
  · obtain ⟨-, rfl⟩ := Prod.mk.inj (Option.some.inj h)
    split
    · rcases Nat.eq_zero_or_pos low with rfl | hpos
      · exact .inl rfl
      · exact .inr ⟨hpos, hlow.trans (by decide), Int.le_refl _, by simp [BinaryFormat.single], .inr rfl⟩
    · refine .inr ⟨?_, ?_, ?_, ?_, .inl ?_⟩ <;> simp only [BinaryFormat.single] <;> omega

/-- A number is put together from its parts. -/
theorem single_of_parts? {x : Float32} {negative : Bool} {m : Scaled} (h : parts? x = some (negative, m)) :
    Numeral.single negative (some m) = x := by
  have hlt : x.toBits.toNat < 4294967296 := x.toBits.toNat_lt
  have hbits : Numeral.bitsOf 23 8 150 negative m = x.toBits.toNat := by
    simp only [parts?, show pow2 23 = 8388608 from rfl, show pow2 8 = 256 from rfl, show pow2 31 = 2147483648 from rfl] at h
    simp only [Numeral.bitsOf, show pow2 23 = 8388608 from rfl, show pow2 (23 + 8) = 2147483648 from rfl]
    generalize x.toBits.toNat = bits at *
    split at h
    · exact absurd h nofun
    · obtain ⟨rfl, rfl⟩ := Prod.mk.inj (Option.some.inj h)
      clear h
      simp only [decide_eq_true_eq]
      by_cases hzero : bits / 8388608 % 256 = 0
      · rw [if_pos hzero, if_pos (Nat.mod_lt _ (by decide))]
        split <;> simp only <;> omega
      · rw [if_neg hzero, if_neg (Nat.not_lt.2 (Nat.le_add_right _ _))]
        split <;> simp only <;> omega
  rw [Numeral.single, Option.getD_some, hbits, UInt32.ofNat_toNat, Float32.ofBits_toBits]

/-! ## The search -/

variable {x : Scaled} {num den digits : Nat} {k : Int}

/-- Digits are read back if rounding them twice gives the number. -/
theorem readsBack_iff : readsBack x digits k = true ↔
    (BinaryFormat.double.roundDecimal? digits k).bind BinaryFormat.single.roundScaled? = some x :=
  beq_iff_eq

/-- The ratio of a number has its value. -/
theorem ratio_spec (x : Scaled) : 0 < (ratio x).2 ∧ ((ratio x).1 : ℚ) / (ratio x).2 = x.value :=
  powerRatio_spec two_pos x.mantissa x.exponent

/-- Scaling down by a power of ten, or up if it is negative. -/
theorem scaleDown10_spec (num : Nat) (hden : 0 < den) (k : Int) :
    0 < (scaleDown10 num den k).2 ∧ ((scaleDown10 num den k).1 : ℚ) / (scaleDown10 num den k).2 = num / den / 10 ^ k :=
  scaledRatio_spec (by decide : 0 < 10) num hden k

/-- The decade of a ratio below one, by the greatest number below its inverse. -/
theorem inDecade_of_inverse {t c : Nat} (hden : 0 < den) (hlow : num * t < den) (hhigh : den ≤ num * (t + 1)) (hc : 10 ^ c ≤ t)
    (hc' : t < 10 ^ (c + 1)) : InDecade (num / den) (1 - (c + 1 : Nat)) := by
  have hdenQ : (0 : ℚ) < den := by exact_mod_cast hden
  constructor
  · rw [show (1 - ((c + 1 : Nat) : Int) - 1) = -((c + 1 : Nat) : Int) by ring, zpow_neg, zpow_natCast, le_div_iff₀ hdenQ,
      inv_mul_le_iff₀ (by positivity), mul_comm]
    exact_mod_cast hhigh.trans (Nat.mul_le_mul_left num hc')
  · rw [show (1 - ((c + 1 : Nat) : Int)) = -(c : Int) by push_cast; ring, zpow_neg, zpow_natCast, div_lt_iff₀ hdenQ,
      lt_inv_mul_iff₀ (by positivity), mul_comm]
    exact_mod_cast (Nat.mul_le_mul_left num hc).trans_lt hlow

/-- The decade of a ratio. Below one it is found from the greatest number below the inverse of the ratio. -/
theorem decimalExponent_spec (hnum : 0 < num) (hden : 0 < den) : InDecade (num / den) (decimalExponent num den) := by
  unfold decimalExponent
  split
  · rename_i hle
    obtain ⟨c, hc, hlow, hhigh⟩ := exists_length_digitsOfNat (Nat.div_pos hle hden)
    rw [digitCount, hc]
    exact inDecade_div hden ((Nat.le_div_iff_mul_le hden).1 hlow) ((Nat.div_lt_iff_lt_mul hden).1 hhigh)
  · rename_i hlt
    obtain ⟨t, ht⟩ := Nat.exists_eq_add_one.2 (Nat.div_pos (by omega : num ≤ den + num - 1) hnum)
    have hdiv := Nat.div_add_mod (den + num - 1) num
    have hmod := Nat.mod_lt (den + num - 1) hnum
    rw [ht, Nat.mul_add_one] at hdiv
    have hbelow : num * t < den := by omega
    have habove : den ≤ num * (t + 1) := by
      rw [Nat.mul_add_one]
      omega
    have hpos : 0 < t := by
      refine Nat.pos_of_ne_zero ?_
      rintro rfl
      omega
    obtain ⟨c, hc, hlow, hhigh⟩ := exists_length_digitsOfNat hpos
    rw [ht, Nat.add_sub_cancel, digitCount, hc]
    exact inDecade_of_inverse hden hbelow habove hlow hhigh

/-- Digits found on a grid are read back. -/
theorem readsBack_of_onGrid? (h : onGrid? x num den k = some digits) : readsBack x digits k = true := by
  simp only [onGrid?] at h
  generalize BinaryFormat.roundDiv _ _ = nearer at h
  generalize (if nearer = _ then _ else _) = farther at h
  split at h
  · rename_i hnearer
    rwa [← Option.some.inj h]
  · split at h
    · rename_i hfarther
      rwa [← Option.some.inj h]
    · exact absurd h nofun

/-- On a grid that the magnitude lies on there is a hit. -/
theorem isSome_onGrid? (hx : BinaryFormat.single.Holds x) (hden : 0 < den) (hratio : (num / den : ℚ) = x.value) {n : Nat}
    (hn : (n * 10 ^ k : ℚ) = x.value) : (onGrid? x num den k).isSome = true := by
  obtain ⟨hpos, hscaled⟩ := scaleDown10_spec num hden k
  have hposQ : (0 : ℚ) < (scaleDown10 num den k).2 := by exact_mod_cast hpos
  have hexact : (scaleDown10 num den k).1 = n * (scaleDown10 num den k).2 := by
    rw [hratio, ← hn, mul_div_cancel_right₀ _ (zpow_pos (by norm_num) k).ne', div_eq_iff hposQ.ne'] at hscaled
    exact_mod_cast hscaled
  have hnearer : BinaryFormat.roundDiv (scaleDown10 num den k).1 (scaleDown10 num den k).2 = n := by
    rw [hexact, BinaryFormat.roundDiv_mul n hpos]
  have hreads : readsBack x n k = true := readsBack_iff.2 (BinaryFormat.roundDecimal?_single hx hn)
  simp only [onGrid?, hnearer, hreads, if_true, Option.isSome_some]

/-- The search ends on a grid with a hit, if there is one within its tries. -/
theorem readsBack_search {top : Int} {length i tries : Nat} (hle : length ≤ i) (hlt : i < length + tries)
    (h : (onGrid? x num den (top - i)).isSome = true) :
    readsBack x (search x num den top length tries).1 (search x num den top length tries).2 = true := by
  induction tries generalizing length with
  | zero => omega
  | succ tries ih =>
    unfold search
    cases hgrid : onGrid? x num den (top - length) with
    | some digits => exact readsBack_of_onGrid? hgrid
    | none =>
      have hne : length ≠ i := by
        rintro rfl
        rw [hgrid] at h
        exact absurd h nofun
      exact ih (by omega) (by omega)

/-- A magnitude has a decimal expansion that ends, with fewer digits than there are tries. -/
theorem exists_decimal (hx : BinaryFormat.single.Holds x) :
    ∃ (n : Nat) (k : Int), n < 10 ^ 119 ∧ (n * 10 ^ k : ℚ) = x.value := by
  obtain ⟨-, hlt, hge, hle, -⟩ := hx
  simp only [BinaryFormat.single] at hlt hge hle
  by_cases he : 0 ≤ x.exponent
  · obtain ⟨e, he⟩ := Int.eq_ofNat_of_zero_le he
    refine ⟨x.mantissa * 2 ^ e, 0, ?_, ?_⟩
    · calc x.mantissa * 2 ^ e ≤ 2 ^ 24 * 2 ^ 104 := Nat.mul_le_mul hlt.le (Nat.pow_le_pow_right two_pos (by omega))
        _ < 10 ^ 119 := by norm_num
    · rw [Scaled.value, he, zpow_zero, mul_one, zpow_natCast, Nat.cast_mul, Nat.cast_pow, Nat.cast_ofNat]
  · obtain ⟨e, he⟩ : ∃ e : Nat, x.exponent = -e := ⟨(-x.exponent).toNat, by omega⟩
    refine ⟨x.mantissa * 5 ^ e, -e, ?_, ?_⟩
    · calc x.mantissa * 5 ^ e ≤ 2 ^ 24 * 5 ^ 149 := Nat.mul_le_mul hlt.le (Nat.pow_le_pow_right (by decide) (by omega))
        _ < 10 ^ 119 := by norm_num
    · have hten : (10 : ℚ) ^ e = 5 ^ e * 2 ^ e := by rw [← mul_pow]; norm_num
      rw [Scaled.value, he, zpow_neg, zpow_neg, zpow_natCast, zpow_natCast, hten, Nat.cast_mul, Nat.cast_pow, Nat.cast_ofNat]
      field_simp

/-- The shortest decimal reads back. -/
theorem readsBack_decimal (hx : BinaryFormat.single.Holds x) : readsBack x (decimal x).1 (decimal x).2 = true := by
  obtain ⟨hden, hratio⟩ := ratio_spec x
  obtain ⟨n, k, hlt, hn⟩ := exists_decimal hx
  have hnum : 0 < (ratio x).1 := by
    refine Nat.pos_of_ne_zero fun hzero => hx.value_pos.ne ?_
    rw [← hratio, hzero, Nat.cast_zero, zero_div]
  have hpos : 0 < n := by
    refine Nat.pos_of_ne_zero fun hzero => hx.value_pos.ne ?_
    rw [← hn, hzero, Nat.cast_zero, zero_mul]
  have htop : decimalExponent (ratio x).1 (ratio x).2 = (digitsOfNat n).length + k := by
    have hdecade := (inDecade_digits hpos).scale k
    rw [hn, ← hratio] at hdecade
    exact (decimalExponent_spec hnum hden).unique hdecade
  have hlength : (digitsOfNat n).length ≤ 119 := by
    rwa [digitsOfNat_eq, Nat.length_toDigits_le_iff (by decide) (by decide)]
  have hhit : (onGrid? x (ratio x).1 (ratio x).2
      (decimalExponent (ratio x).1 (ratio x).2 - (digitsOfNat n).length)).isSome = true := by
    rw [htop, add_sub_cancel_left]
    exact isSome_onGrid? hx hden hratio hn
  exact readsBack_search (length_digitsOfNat_pos n) (by omega) hhit

/-! ## The spelling -/

/-- A numeral of the given sign and value that is not an integer. -/
structure Spells (n : Numeral) (negative : Bool) (q : ℚ) : Prop where
  sign : n.negative = negative
  proper : n.IsProper
  broken : n.isInteger = false
  value : (n.decimal.1 * 10 ^ n.decimal.2 : ℚ) = q

/-- Zeros at the end of the digits raise the exponent. -/
theorem value_shift (m a : Nat) (k : Int) : ((m * 10 ^ a : Nat) * 10 ^ k : ℚ) = m * 10 ^ (a + k) := by
  rw [zpow_add₀ (by norm_num), zpow_natCast, Nat.cast_mul, Nat.cast_pow, Nat.cast_ofNat, mul_assoc]

/-- Digits as a positive number starts with them. -/
structure Leads (kept : List Char) : Prop where
  digits : ∀ c ∈ kept, c.isDigit = true
  ne_nil : kept ≠ []
  head : kept.head? ≠ some '0'

/-- The digits of a positive number without the zeros at the end. -/
theorem exists_significant (hdigits : 0 < digits) :
    ∃ kept z, dropEndWhile (· == '0') (digitsOfNat digits) = kept ∧ natOfDigits kept * 10 ^ z = digits ∧
      (digitsOfNat digits).length = kept.length + z ∧ Leads kept := by
  obtain ⟨zeros, hall, hzeros⟩ := exists_dropEndWhile_append (· == '0') (digitsOfNat digits)
  obtain ⟨z, rfl⟩ : ∃ z, zeros = List.replicate z '0' :=
    ⟨_, List.eq_replicate_of_mem fun c hc => by simpa using hzeros c hc⟩
  have hvalue : natOfDigits (dropEndWhile (· == '0') (digitsOfNat digits)) * 10 ^ z = digits := by
    have h := congrArg natOfDigits hall
    rwa [natOfDigits_digitsOfNat, natOfDigits_append, natOfDigits_replicate_zero, List.length_replicate, Nat.add_zero,
      eq_comm] at h
  have hne : dropEndWhile (· == '0') (digitsOfNat digits) ≠ [] := by
    intro hnil
    rw [hnil, show natOfDigits [] = 0 from rfl, Nat.zero_mul] at hvalue
    exact hdigits.ne hvalue
  refine ⟨_, z, rfl, hvalue, ?_, ?_, hne, ?_⟩
  · have h := congrArg List.length hall
    rwa [List.length_append, List.length_replicate] at h
  · intro c hc
    exact isDigit_of_mem_digitsOfNat ((dropEndWhile_prefix_self _ _).subset hc)
  · rw [← List.head?_append_of_ne_nil _ hne, ← hall]
    exact head?_digitsOfNat hdigits

variable {kept : List Char}

/-- A whole number: zeros up to the point, and one behind it. -/
theorem spells_whole (h : Leads kept) (negative : Bool) (a : Nat) :
    Spells { negative, whole := kept ++ List.replicate a '0', fraction := ['0'] } negative
      (natOfDigits kept * 10 ^ (a : Int)) := by
  refine ⟨rfl, ⟨by simp [h.ne_nil], ?_, fun hhead => ?_⟩, by simp [Numeral.isInteger], ?_⟩
  · simp only [List.append_assoc, List.mem_append, List.mem_replicate, List.mem_singleton]
    rintro c (hc | ⟨-, rfl⟩ | rfl)
    · exact h.digits c hc
    · rfl
    · rfl
  · rw [List.head?_append_of_ne_nil _ h.ne_nil] at hhead
    exact absurd hhead h.head
  · have hall : kept ++ List.replicate a '0' ++ ['0'] = kept ++ List.replicate (a + 1) '0' := by
      rw [List.append_assoc, List.replicate_succ']
    simp only [Numeral.decimal, hall, natOfDigits_append, natOfDigits_replicate_zero, List.length_replicate, Nat.add_zero,
      Option.getD_none, List.length_singleton, value_shift]
    congr 2
    omega

/-- The point between the digits; behind all of them only if there is an exponent. -/
theorem spells_cut (h : Leads kept) (negative : Bool) {p : Nat} (hp : 0 < p) {e? : Option Int}
    (hbroken : p < kept.length ∨ e?.isSome = true) :
    Spells { negative, whole := kept.take p, fraction := kept.drop p, exponent? := e? } negative
      (natOfDigits kept * 10 ^ (e?.getD 0 - (kept.length - p : Nat))) := by
  refine ⟨rfl, ⟨by simp [h.ne_nil, hp.ne'], ?_, fun hhead => ?_⟩, ?_, ?_⟩
  · rw [List.take_append_drop]
    exact h.digits
  · rw [List.head?_take, if_neg hp.ne'] at hhead
    exact absurd hhead h.head
  · rcases hbroken with hlt | hsome
    · simp [Numeral.isInteger, hlt]
    · obtain ⟨e, rfl⟩ := Option.isSome_iff_exists.1 hsome
      simp [Numeral.isInteger]
  · simp only [Numeral.decimal, List.take_append_drop, List.length_drop]

/-- A number below one: zeros from the point on. -/
theorem spells_below_one (h : Leads kept) (negative : Bool) (a : Nat) :
    Spells { negative, whole := ['0'], fraction := List.replicate a '0' ++ kept } negative
      (natOfDigits kept * 10 ^ (-(a + kept.length : Nat) : Int)) := by
  refine ⟨rfl, ⟨by simp, ?_, fun _ => rfl⟩, by simp [Numeral.isInteger, h.ne_nil], ?_⟩
  · simp only [List.mem_append, List.mem_replicate, List.mem_singleton]
    rintro c (rfl | ⟨-, rfl⟩ | hc)
    · rfl
    · rfl
    · exact h.digits c hc
  · have hall : ['0'] ++ (List.replicate a '0' ++ kept) = List.replicate (a + 1) '0' ++ kept := by
      rw [← List.append_assoc, ← List.replicate_one, List.replicate_append_replicate, Nat.add_comm]
    simp only [Numeral.decimal, hall, natOfDigits_append, natOfDigits_replicate_zero, Nat.zero_mul, Nat.zero_add,
      Option.getD_none, List.length_append, List.length_replicate, zero_sub]

/-- A layout spells its number: whatever the form, the exponent of the significant digits is the same. -/
theorem spells_layout (negative : Bool) (hdigits : 0 < digits) (k : Int) :
    Spells (layout negative digits k) negative (digits * 10 ^ k) := by
  obtain ⟨kept, z, hkept, hvalue, hlength, hleads⟩ := exists_significant hdigits
  have hpos : 0 < kept.length := List.length_pos_iff.2 hleads.ne_nil
  have hspells {n : Numeral} {e : Int} (h : Spells n negative (natOfDigits kept * 10 ^ e)) (he : e = z + k) :
      Spells n negative (digits * 10 ^ k) := by
    rwa [he, ← value_shift, hvalue] at h
  unfold layout
  simp only [hlength, hkept]
  split
  · split
    · exact hspells (spells_whole hleads negative _) (by omega)
    · exact hspells (spells_cut hleads negative (by omega) (.inl (by omega))) (by simp only [Option.getD_none]; omega)
  · split
    · exact hspells (spells_below_one hleads negative _) (by omega)
    · exact hspells (spells_cut hleads negative one_pos (.inr rfl)) (by simp only [Option.getD_some]; omega)

/-- A numeral is written for finite numbers only. -/
theorem isSome_numeral? (x : Float32) : (numeral? x).isSome = x.isFinite := by
  rw [← isSome_parts?, numeral?, Option.isSome_map]

/-- What is not an integer is read in double precision, and then rounded to single precision. -/
theorem toSingle?_of_reads {n : Numeral} {m : Scaled} (h : n.isInteger = false)
    (hreads : (BinaryFormat.double.roundDecimal? n.decimal.1 n.decimal.2).bind BinaryFormat.single.roundScaled? = some m) :
    n.toSingle? = some (Numeral.single n.negative (some m)) := by
  obtain ⟨d, hd, hm⟩ := Option.bind_eq_some_iff.1 hreads
  have hword : n.isWord = false := by
    rw [Numeral.isWord, Numeral.toIntWithin?, Numeral.toInt?, h]
    rfl
  rw [Numeral.toSingle?, hword, if_neg Bool.false_ne_true, Numeral.toDouble?, hd, Option.map_some, hm]

/-- No digits at all are read as zero. -/
theorem reads_zero (k : Int) :
    (BinaryFormat.double.roundDecimal? 0 k).bind BinaryFormat.single.roundScaled? = some ⟨0, -149⟩ := by
  rw [BinaryFormat.roundDecimal?, decide_eq_true rfl, Bool.true_or, if_pos rfl]
  rfl

/-- The numeral of a number is proper and read as the number. -/
theorem toSingle?_numeral? {x : Float32} {n : Numeral} (h : numeral? x = some n) : n.IsProper ∧ n.toSingle? = some x := by
  obtain ⟨⟨negative, m⟩, hparts, rfl⟩ := Option.map_eq_some_iff.1 h
  rw [← single_of_parts? hparts]
  simp only
  split
  · rename_i hzero
    have hm : m = ⟨0, -149⟩ := by
      rcases holds_of_parts? hparts with hm | hm
      · exact hm
      · exact absurd hzero hm.pos.ne'
    refine ⟨⟨by simp, by simp, fun _ => rfl⟩, toSingle?_of_reads rfl ?_⟩
    rw [hm]
    exact reads_zero _
  · rename_i hne
    have hm : BinaryFormat.single.Holds m := by
      rcases holds_of_parts? hparts with rfl | hm
      · exact absurd rfl hne
      · exact hm
    have hreads := readsBack_iff.1 (readsBack_decimal hm)
    have hdigits : 0 < (decimal m).1 := by
      refine Nat.pos_of_ne_zero fun hzero => hne ?_
      rw [hzero, reads_zero] at hreads
      rw [← Option.some.inj hreads]
    obtain ⟨hsign, hproper, hbroken, hvalue⟩ := spells_layout negative hdigits (decimal m).2
    refine ⟨hproper, ?_⟩
    rw [← BinaryFormat.roundDecimal?_congr (by decide) hvalue] at hreads
    rw [toSingle?_of_reads hbroken hreads, hsign]

end Shortest

end Whiteboard
