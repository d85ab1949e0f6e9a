import Whiteboard.Number.Numeral
import Whiteboard.Proofs.Number.Rounding

/-!
# Rounding a decimal

What a decimal is rounded to depends on its value only (`BinaryFormat.roundDecimal?_congr`), so zeros may be added or dropped
and the point may be moved. A single precision number that is read in double precision first is still read as itself
(`BinaryFormat.roundDecimal?_single`).
-/

namespace Whiteboard

open Text

/-! ## Digits -/

theorem digitsOfNat_eq (n : Nat) : digitsOfNat n = Nat.toDigits 10 n := Nat.toList_repr

theorem natOfDigits_eq (digits : List Char) : natOfDigits digits = Nat.ofDigitChars 10 digits 0 := rfl

/-- The digits of a number are read as this number. -/
@[simp] theorem natOfDigits_digitsOfNat (n : Nat) : natOfDigits (digitsOfNat n) = n := by
  rw [natOfDigits_eq, digitsOfNat_eq, Nat.ofDigitChars_ten_toDigits]

/-- The digits of a number are digits. -/
theorem isDigit_of_mem_digitsOfNat {n : Nat} {c : Char} (h : c ∈ digitsOfNat n) : c.isDigit = true :=
  Nat.isDigit_of_mem_toDigits (by decide) (by decide) (digitsOfNat_eq n ▸ h)

theorem natOfDigits_append (s t : List Char) : natOfDigits (s ++ t) = natOfDigits s * 10 ^ t.length + natOfDigits t := by
  rw [natOfDigits_eq, Nat.ofDigitChars_append, Nat.ofDigitChars_eq_ofDigitChars_zero, Nat.mul_comm]
  rfl

@[simp] theorem natOfDigits_replicate_zero (n : Nat) : natOfDigits (List.replicate n '0') = 0 := by
  rw [natOfDigits_eq, Nat.ofDigitChars_replicate_zero, Nat.mul_zero]

/-- A digit is less than ten. -/
theorem digitValue_lt {c : Char} (h : c.isDigit = true) : digitValue c < 10 := by
  simp only [Char.isDigit, Bool.and_eq_true, decide_eq_true_eq] at h
  have hle : c.toNat ≤ 57 := h.2
  have hzero : '0'.toNat = 48 := rfl
  rw [digitValue]
  omega

/-- So many digits spell a number with no more digits. -/
theorem natOfDigits_lt {digits : List Char} (h : ∀ c ∈ digits, c.isDigit = true) : natOfDigits digits < 10 ^ digits.length := by
  induction digits with
  | nil => exact Nat.one_pos
  | cons c digits ih =>
    have hdigits := ih fun c hc => h c (List.mem_cons_of_mem _ hc)
    have hvalue : digitValue c + 1 ≤ 10 := digitValue_lt (h c List.mem_cons_self)
    have hhead : natOfDigits [c] = digitValue c := by simp [natOfDigits]
    rw [← List.singleton_append, natOfDigits_append, hhead, List.length_append, List.length_singleton, Nat.pow_add, Nat.pow_one]
    calc digitValue c * 10 ^ digits.length + natOfDigits digits < (digitValue c + 1) * 10 ^ digits.length := by
          rw [Nat.add_one_mul]
          exact Nat.add_lt_add_left hdigits _
      _ ≤ 10 * 10 ^ digits.length := Nat.mul_le_mul_right _ hvalue

/-- Every number has a digit. -/
theorem length_digitsOfNat_pos (n : Nat) : 0 < (digitsOfNat n).length := by
  rw [digitsOfNat_eq]
  exact Nat.length_toDigits_pos

/-- A positive number lies in the decade that `m` ends: from `10 ^ (m - 1)` on and below `10 ^ m`. -/
def InDecade (q : ℚ) (m : Int) : Prop := 10 ^ (m - 1) ≤ q ∧ q < 10 ^ m

/-- A number lies in one decade only. -/
theorem InDecade.unique {q : ℚ} {m m' : Int} (h : InDecade q m) (h' : InDecade q m') : m = m' := by
  have hlt := (zpow_lt_zpow_iff_right₀ (by norm_num : (1 : ℚ) < 10)).1 (h.1.trans_lt h'.2)
  have hgt := (zpow_lt_zpow_iff_right₀ (by norm_num : (1 : ℚ) < 10)).1 (h'.1.trans_lt h.2)
  omega

/-- Moving the point moves the decade. -/
theorem InDecade.scale {q : ℚ} {m : Int} (h : InDecade q m) (k : Int) : InDecade (q * 10 ^ k) (m + k) := by
  have hpos : (0 : ℚ) < 10 ^ k := zpow_pos (by norm_num) k
  constructor
  · rw [show m + k - 1 = m - 1 + k by ring, zpow_add₀ (by norm_num)]
    exact mul_le_mul_of_nonneg_right h.1 hpos.le
  · rw [zpow_add₀ (by norm_num)]
    exact mul_lt_mul_of_pos_right h.2 hpos

/-- So many digits, and no fewer. -/
theorem exists_length_digitsOfNat {n : Nat} (hn : 0 < n) :
    ∃ l, (digitsOfNat n).length = l + 1 ∧ 10 ^ l ≤ n ∧ n < 10 ^ (l + 1) := by
  obtain ⟨l, hl⟩ := Nat.exists_eq_add_one.2 (length_digitsOfNat_pos n)
  refine ⟨l, hl, ?_, ?_⟩
  · rcases Nat.eq_zero_or_pos l with rfl | hpos
    · exact hn
    · rw [← Nat.not_lt, ← Nat.length_toDigits_le_iff (by decide) hpos, ← digitsOfNat_eq, hl]
      omega
  · rw [← Nat.length_toDigits_le_iff (by decide) l.succ_pos, ← digitsOfNat_eq, hl]

/-- A ratio between two powers of ten that follow each other. -/
theorem inDecade_div {num den l : Nat} (hden : 0 < den) (hlow : 10 ^ l * den ≤ num) (hhigh : num < 10 ^ (l + 1) * den) :
    InDecade (num / den) (l + 1 : Nat) := by
  have hdenQ : (0 : ℚ) < den := by exact_mod_cast hden
  constructor
  · rw [Nat.cast_add, Nat.cast_one, add_sub_cancel_right, zpow_natCast, le_div_iff₀ hdenQ]
    exact_mod_cast hlow
  · rw [zpow_natCast, div_lt_iff₀ hdenQ]
    exact_mod_cast hhigh

/-- The number of digits gives the decade. -/
theorem inDecade_digits {n : Nat} (hn : 0 < n) : InDecade n (digitsOfNat n).length := by
  obtain ⟨l, hl, hlow, hhigh⟩ := exists_length_digitsOfNat hn
  have hdecade := inDecade_div Nat.one_pos (by rwa [Nat.mul_one]) (by rwa [Nat.mul_one] : n < 10 ^ (l + 1) * 1)
  rwa [Nat.cast_one, div_one, ← hl] at hdecade

/-- A positive number is not written with a zero in front. -/
theorem head?_digitsOfNat {n : Nat} (hn : 0 < n) : (digitsOfNat n).head? ≠ some '0' := by
  intro hhead
  obtain ⟨rest, hrest⟩ := List.head?_eq_some_iff.1 hhead
  obtain ⟨l, hl, hlow, -⟩ := exists_length_digitsOfNat hn
  have hlength : rest.length = l := by
    rw [hrest] at hl
    exact Nat.succ.inj hl
  have hvalue : natOfDigits rest = n := by
    rw [← natOfDigits_digitsOfNat n, hrest]
    rfl
  have hlt := natOfDigits_lt fun c hc => isDigit_of_mem_digitsOfNat (hrest ▸ List.mem_cons_of_mem _ hc)
  rw [hvalue, hlength] at hlt
  omega

/-! ## Numerals -/

namespace Numeral

/-- A numeral as it may be written: digits only, at least one of them before the point, and no zero in front of others. -/
structure IsProper (n : Numeral) : Prop where
  whole : n.whole ≠ []
  digits : ∀ c ∈ n.whole ++ n.fraction, c.isDigit = true
  zero : n.whole.head? = some '0' → n.whole = ['0']

/-- A whole number is a proper numeral. -/
theorem isProper_ofInt (n : Int) : (ofInt n).IsProper := by
  refine ⟨List.ne_nil_of_length_pos (length_digitsOfNat_pos _), ?_, ?_⟩
  · intro c hc
    rw [ofInt, List.append_nil] at hc
    exact isDigit_of_mem_digitsOfNat hc
  · intro hhead
    rcases Nat.eq_zero_or_pos n.natAbs with hzero | hpos
    · rw [ofInt, hzero]
      rfl
    · exact absurd hhead (head?_digitsOfNat hpos)

/-- The integer that was written. -/
theorem toInt?_ofInt (n : Int) : (ofInt n).toInt? = some n := by
  have hinteger : (ofInt n).isInteger = true := by
    simp only [isInteger, ofInt, natOfDigits_digitsOfNat]
    simp
    omega
  rw [toInt?, if_pos hinteger]
  simp only [ofInt, natOfDigits_digitsOfNat, decide_eq_true_eq, Option.some.injEq]
  split <;> omega

end Numeral

namespace BinaryFormat

/-! ## Decimals -/

variable {f : BinaryFormat} {digits digits' : Nat} {k k' : Int}

/-- A decimal is rounded as a ratio, unless its decade lies far out. -/
theorem roundDecimal?_eq (f : BinaryFormat) (hdigits : 0 < digits) (k : Int) :
    ∃ num den : Nat, ∃ m : Int, 0 < den ∧ (num / den : ℚ) = digits * 10 ^ k ∧ InDecade (digits * 10 ^ k) m ∧
      f.roundDecimal? digits k =
        if m < -400 then some ⟨0, f.minExponent⟩ else if 400 < m then none else f.round? num den := by
  obtain ⟨hden, hratio⟩ := powerRatio_spec (by decide : 0 < 10) digits k
  refine ⟨_, _, _, hden, hratio, (inDecade_digits hdigits).scale k, ?_⟩
  simp only [roundDecimal?, hdigits.ne', decide_false, Bool.false_or, decide_eq_true_eq, powerRatio]
  split
  · rfl
  · split
    · rfl
    · split <;> rfl

/-- A decimal is rounded by its value. -/
theorem roundDecimal?_congr (hf : 0 < f.precision) (h : (digits * 10 ^ k : ℚ) = digits' * 10 ^ k') :
    f.roundDecimal? digits k = f.roundDecimal? digits' k' := by
  have hten (k : Int) : (10 : ℚ) ^ k ≠ 0 := (zpow_pos (by norm_num) k).ne'
  rcases Nat.eq_zero_or_pos digits with rfl | hdigits
  · have hdigits' : digits' = 0 := by simpa [hten] using h.symm
    simp [roundDecimal?, hdigits']
  · have hdigits' : 0 < digits' := by
      refine Nat.pos_of_ne_zero ?_
      rintro rfl
      simp [hten, hdigits.ne'] at h
    obtain ⟨num, den, m, hden, hratio, hdecade, hround⟩ := roundDecimal?_eq f hdigits k
    obtain ⟨num', den', m', hden', hratio', hdecade', hround'⟩ := roundDecimal?_eq f hdigits' k'
    have hm : m = m' := hdecade.unique (h ▸ hdecade')
    rw [hround, hround', hm, round?_congr hf hden hden' (by rw [hratio, hratio', h])]

/-- A decimal that is a number of the format is rounded to it. -/
theorem roundDecimal?_exact (hf : 0 < f.precision) {x : Scaled} (hx : f.Holds x) (h : (digits * 10 ^ k : ℚ) = x.value)
    (hlow : 10 ^ (-99 : Int) ≤ x.value) (hhigh : x.value < 10 ^ (99 : Int)) : f.roundDecimal? digits k = some x := by
  have hdigits : 0 < digits := by
    refine Nat.pos_of_ne_zero ?_
    rintro rfl
    rw [Nat.cast_zero, zero_mul] at h
    exact hx.value_pos.ne h
  obtain ⟨num, den, m, hden, hratio, hdecade, hround⟩ := roundDecimal?_eq f hdigits k
  rw [h] at hratio hdecade
  have hge := (zpow_lt_zpow_iff_right₀ (by norm_num : (1 : ℚ) < 10)).1 (hlow.trans_lt hdecade.2)
  have hle := (zpow_lt_zpow_iff_right₀ (by norm_num : (1 : ℚ) < 10)).1 (hdecade.1.trans_lt hhigh)
  rw [hround, if_neg (by omega), if_neg (by omega), round?_exact hf hx hden hratio]

/-! ## Single precision numbers in double precision -/

/-- Double precision has every single precision number. -/
theorem Holds.exists_double {x : Scaled} (hx : single.Holds x) : ∃ y, double.Holds y ∧ y.value = x.value := by
  obtain ⟨hpos, hlt, hge, hle, -⟩ := hx
  have hlog : x.mantissa.log2 < 24 := (Nat.log2_lt hpos.ne').2 hlt
  obtain ⟨s, hs⟩ := Nat.exists_eq_add_of_le (Nat.le_of_lt_succ (hlog.trans (by decide : 24 < 53)))
  have hlow : 2 ^ 52 ≤ x.mantissa * 2 ^ s := by
    rw [hs, Nat.pow_add]
    exact Nat.mul_le_mul_right _ (Nat.log2_self_le hpos.ne')
  have hhigh : x.mantissa * 2 ^ s < 2 ^ 53 := by
    rw [show 53 = x.mantissa.log2 + 1 + s by omega, Nat.pow_add]
    exact Nat.mul_lt_mul_of_pos_right Nat.lt_log2_self (Nat.two_pow_pos s)
  simp only [single] at hge hle
  refine ⟨⟨x.mantissa * 2 ^ s, x.exponent - s⟩, ⟨?_, hhigh, ?_, ?_, .inl hlow⟩, ?_⟩
  · exact Nat.mul_pos hpos (Nat.two_pow_pos s)
  · simp only [double]
    omega
  · simp only [double]
    omega
  · rw [Scaled.value, Scaled.value, zpow_sub₀ two_ne_zero, zpow_natCast, Nat.cast_mul, Nat.cast_pow, Nat.cast_ofNat]
    field_simp

/-- The bounds of single precision. -/
theorem Holds.single_bounds {x : Scaled} (hx : single.Holds x) :
    (2 : ℚ) ^ x.exponent ≤ x.value ∧ x.value < 2 ^ (24 + x.exponent) := by
  refine ⟨?_, hx.value_lt⟩
  have hone : (1 : ℚ) ≤ x.mantissa := by exact_mod_cast hx.pos
  exact le_mul_of_one_le_left (zpow_pos two_pos _).le hone

/-- A decimal that is a single precision number is read as it, although it is read in double precision first. -/
theorem roundDecimal?_single {x : Scaled} (hx : single.Holds x) (h : (digits * 10 ^ k : ℚ) = x.value) :
    (double.roundDecimal? digits k).bind single.roundScaled? = some x := by
  obtain ⟨y, hy, hvalue⟩ := hx.exists_double
  obtain ⟨hlow, hhigh⟩ := hx.single_bounds
  have hge : (2 : ℚ) ^ (-149 : Int) ≤ 2 ^ x.exponent := zpow_le_zpow_right₀ one_le_two hx.ge
  have hle : (2 : ℚ) ^ (24 + x.exponent) ≤ 2 ^ (24 + 104 : Int) := zpow_le_zpow_right₀ one_le_two (Int.add_le_add_left hx.le 24)
  have hsmall : (10 : ℚ) ^ (-99 : Int) ≤ 2 ^ (-149 : Int) := by norm_num
  have hgreat : (2 : ℚ) ^ (24 + 104 : Int) ≤ 10 ^ (99 : Int) := by norm_num
  have hdouble : double.roundDecimal? digits k = some y := by
    refine roundDecimal?_exact (by decide) hy (h.trans hvalue.symm) ?_ ?_
    · rw [hvalue]
      exact hsmall.trans (hge.trans hlow)
    · rw [hvalue]
      exact hhigh.trans_le (hle.trans hgreat)
  rw [hdouble]
  exact roundScaled?_exact (by decide) hx hvalue

end BinaryFormat

end Whiteboard
