import Mathlib.Algebra.Order.Field.Power
import Mathlib.Data.Rat.Cast.Order
import Mathlib.Tactic.FieldSimp
import Mathlib.Tactic.Linarith
import Mathlib.Tactic.Positivity
import Mathlib.Tactic.Ring
import Whiteboard.Number.Rounding

/-!
# Rounding a ratio

A ratio is rounded by what it is, not by how it is written (`BinaryFormat.round?_congr`), and a number of the format is rounded
to itself (`BinaryFormat.round?_exact`).

Both rest on one fact: the exponent that is rounded to is the one with which the ratio fills the mantissa, or the least one if
that is greater (`BinaryFormat.exponentFor_spec`), and there is only one that it fills the mantissa with.
-/

namespace Whiteboard

/-- What a mantissa and an exponent stand for. -/
def Scaled.value (x : Scaled) : ℚ := x.mantissa * 2 ^ x.exponent

/-! ## Powers as ratios -/

/-- The number `m * b ^ e` as numerator and denominator. -/
def powerRatio (b m : Nat) (e : Int) : Nat × Nat := if 0 ≤ e then (m * b ^ e.toNat, 1) else (m, b ^ (-e).toNat)

/-- The ratio `num / den / b ^ e` as numerator and denominator. -/
def scaledRatio (b num den : Nat) (e : Int) : Nat × Nat :=
  if 0 ≤ e then (num, den * b ^ e.toNat) else (num * b ^ (-e).toNat, den)

variable {b num den num' den' : Nat}

/-- The ratio that a power is written as has its value. -/
theorem powerRatio_spec (hb : 0 < b) (m : Nat) (e : Int) :
    0 < (powerRatio b m e).2 ∧ ((powerRatio b m e).1 : ℚ) / (powerRatio b m e).2 = m * b ^ e := by
  unfold powerRatio
  split
  · rename_i he
    obtain ⟨n, rfl⟩ := Int.eq_ofNat_of_zero_le he
    refine ⟨Nat.one_pos, ?_⟩
    rw [Int.toNat_natCast, zpow_natCast, Nat.cast_mul, Nat.cast_pow, Nat.cast_one, div_one]
  · rename_i he
    obtain ⟨n, rfl⟩ : ∃ n : Nat, e = -n := ⟨(-e).toNat, by omega⟩
    refine ⟨Nat.pow_pos hb, ?_⟩
    rw [neg_neg, Int.toNat_natCast, zpow_neg, zpow_natCast, Nat.cast_pow, div_eq_mul_inv]

/-- The ratio that is scaled down by a power has its value. -/
theorem scaledRatio_spec (hb : 0 < b) (num : Nat) (hden : 0 < den) (e : Int) :
    0 < (scaledRatio b num den e).2 ∧
    ((scaledRatio b num den e).1 : ℚ) / (scaledRatio b num den e).2 = num / den / b ^ e := by
  unfold scaledRatio
  split
  · rename_i he
    obtain ⟨n, rfl⟩ := Int.eq_ofNat_of_zero_le he
    refine ⟨Nat.mul_pos hden (Nat.pow_pos hb), ?_⟩
    rw [Int.toNat_natCast, zpow_natCast, div_div, Nat.cast_mul, Nat.cast_pow]
  · rename_i he
    obtain ⟨n, rfl⟩ : ∃ n : Nat, e = -n := ⟨(-e).toNat, by omega⟩
    refine ⟨hden, ?_⟩
    rw [neg_neg, Int.toNat_natCast, zpow_neg, zpow_natCast, div_inv_eq_mul, div_mul_eq_mul_div, Nat.cast_mul, Nat.cast_pow]

namespace BinaryFormat

/-! ## The exponent -/

/-- Scaling down by a power of two, or up if it is negative. -/
theorem scaleDown_spec (num : Nat) (hden : 0 < den) (e : Int) :
    0 < (scaleDown num den e).2 ∧ ((scaleDown num den e).1 : ℚ) / (scaleDown num den e).2 = num / den / 2 ^ e :=
  scaledRatio_spec two_pos num hden e

/-- A ratio lies between the powers of two that the lengths of its two numbers give. -/
theorem ratio_bounds (hnum : 0 < num) (hden : 0 < den) :
    (2 : ℚ) ^ ((num.log2 : Int) - den.log2 - 1) ≤ num / den ∧ (num / den : ℚ) < 2 ^ ((num.log2 : Int) - den.log2 + 1) := by
  have hdenQ : (0 : ℚ) < den := by exact_mod_cast hden
  have hnumLe : (2 : ℚ) ^ num.log2 ≤ num := by exact_mod_cast Nat.log2_self_le hnum.ne'
  have hnumLt : (num : ℚ) < 2 ^ (num.log2 + 1) := by exact_mod_cast Nat.lt_log2_self
  have hdenLe : (2 : ℚ) ^ den.log2 ≤ den := by exact_mod_cast Nat.log2_self_le hden.ne'
  have hdenLt : (den : ℚ) < 2 ^ (den.log2 + 1) := by exact_mod_cast Nat.lt_log2_self
  constructor
  · have hsplit : (2 : ℚ) ^ ((num.log2 : Int) - den.log2 - 1) = 2 ^ num.log2 / 2 ^ (den.log2 + 1) := by
      rw [sub_sub, zpow_sub₀ two_ne_zero, zpow_natCast, ← Nat.cast_one, ← Nat.cast_add, zpow_natCast]
    rw [hsplit]
    exact div_le_div₀ (by positivity) hnumLe hdenQ hdenLt.le
  · have hsplit : (2 : ℚ) ^ ((num.log2 : Int) - den.log2 + 1) = 2 ^ (num.log2 + 1) / 2 ^ den.log2 := by
      rw [sub_add_eq_add_sub, zpow_sub₀ two_ne_zero, zpow_natCast, ← Nat.cast_one, ← Nat.cast_add, zpow_natCast]
    rw [hsplit]
    exact div_lt_div₀ hnumLt hdenLe (by positivity) (by positivity)

/-- With the exponent `e` the ratio `q` fills the mantissa. -/
def Fills (f : BinaryFormat) (q : ℚ) (e : Int) : Prop := 2 ^ (f.precision + e - 1 : Int) ≤ q ∧ q < 2 ^ (f.precision + e : Int)

/-- Only one exponent lets a ratio fill the mantissa. -/
theorem Fills.unique {f : BinaryFormat} {q : ℚ} {e e' : Int} (h : f.Fills q e) (h' : f.Fills q e') : e = e' := by
  have hlt := (zpow_lt_zpow_iff_right₀ one_lt_two).1 (h.1.trans_lt h'.2)
  have hgt := (zpow_lt_zpow_iff_right₀ one_lt_two).1 (h'.1.trans_lt h.2)
  omega

/-- The exponent that a ratio is rounded to. -/
theorem exponentFor_spec {f : BinaryFormat} (hf : 0 < f.precision) (hnum : 0 < num) (hden : 0 < den) :
    ∃ e, f.Fills (num / den) e ∧ f.exponentFor num den = max e f.minExponent := by
  obtain ⟨hlow, hhigh⟩ := ratio_bounds hnum hden
  obtain ⟨guess, hguess⟩ : ∃ g : Int, g = (num.log2 : Int) - den.log2 - f.precision + 1 := ⟨_, rfl⟩
  obtain ⟨hpos, hscaled⟩ := scaleDown_spec num hden guess
  have htwo : (0 : ℚ) < 2 ^ guess := zpow_pos two_pos _
  have hfull : (2 : ℚ) ^ (f.precision - 1) * 2 ^ guess = 2 ^ (f.precision + guess - 1 : Int) := by
    rw [← zpow_natCast, ← zpow_add₀ two_ne_zero]
    congr 1
    omega
  have hpow : ((pow2 (f.precision - 1) : Nat) : ℚ) = 2 ^ (f.precision - 1) := Nat.cast_pow 2 _
  have hshort : (scaleDown num den guess).1 / (scaleDown num den guess).2 < pow2 (f.precision - 1) ↔
      (num / den : ℚ) < 2 ^ (f.precision + guess - 1 : Int) := by
    have hposQ : (0 : ℚ) < (scaleDown num den guess).2 := by exact_mod_cast hpos
    rw [Nat.div_lt_iff_lt_mul hpos, ← hfull, ← div_lt_iff₀ htwo, ← hscaled, div_lt_iff₀ hposQ, ← Nat.cast_lt (α := ℚ),
      Nat.cast_mul, hpow]
  have hexponent : f.exponentFor num den =
      max (if (scaleDown num den guess).1 / (scaleDown num den guess).2 < pow2 (f.precision - 1) then guess - 1 else guess)
        f.minExponent := by
    rw [hguess]
    rfl
  rw [hexponent]
  by_cases hlt : (num / den : ℚ) < 2 ^ (f.precision + guess - 1 : Int)
  · rw [if_pos (hshort.2 hlt)]
    refine ⟨guess - 1, ⟨?_, ?_⟩, rfl⟩
    · convert hlow using 2
      omega
    · convert hlt using 2
      omega
  · rw [if_neg (mt hshort.1 hlt)]
    refine ⟨guess, ⟨not_lt.1 hlt, ?_⟩, rfl⟩
    convert hhigh using 2
    omega

/-- A quotient is rounded by its value. -/
theorem roundDiv_congr (hden : 0 < den) (hden' : 0 < den') (h : num * den' = num' * den) :
    roundDiv num den = roundDiv num' den' := by
  have hquotient : num / den = num' / den' := by
    rw [← Nat.mul_div_mul_right num den hden', h, Nat.mul_comm den den', Nat.mul_div_mul_right num' den' hden]
  have hremainder : num % den * den' = num' % den' * den := by
    rw [← Nat.mul_mod_mul_right, ← Nat.mul_mod_mul_right, h, Nat.mul_comm den den']
  have hlt : den < 2 * (num % den) ↔ den' < 2 * (num' % den') := by
    calc den < 2 * (num % den) ↔ den * den' < 2 * (num % den * den') := by rw [← Nat.mul_assoc, Nat.mul_lt_mul_right hden']
      _ ↔ den' * den < 2 * (num' % den' * den) := by rw [hremainder, Nat.mul_comm den den']
      _ ↔ den' < 2 * (num' % den') := by rw [← Nat.mul_assoc, Nat.mul_lt_mul_right hden]
  have heq : 2 * (num % den) = den ↔ 2 * (num' % den') = den' := by
    calc 2 * (num % den) = den ↔ 2 * (num % den * den') = den * den' := by rw [← Nat.mul_assoc, Nat.mul_left_inj hden'.ne']
      _ ↔ 2 * (num' % den' * den) = den' * den := by rw [hremainder, Nat.mul_comm den den']
      _ ↔ 2 * (num' % den') = den' := by rw [← Nat.mul_assoc, Nat.mul_left_inj hden.ne']
  have hbeq : (2 * (num % den) == den) = (2 * (num' % den') == den') := Bool.eq_iff_iff.2 (by simpa using heq)
  simp only [roundDiv, hquotient, hlt, hbeq]

/-- Ratios of one value agree crosswise. -/
theorem mul_eq_mul_of_div_eq_div (hden : 0 < den) (hden' : 0 < den') (h : (num / den : ℚ) = num' / den') :
    num * den' = num' * den := by
  rw [div_eq_div_iff (by positivity) (by positivity)] at h
  exact_mod_cast h

/-- A ratio is rounded by its value. -/
theorem round?_congr {f : BinaryFormat} (hf : 0 < f.precision) (hden : 0 < den) (hden' : 0 < den')
    (h : (num / den : ℚ) = num' / den') : f.round? num den = f.round? num' den' := by
  have hcross := mul_eq_mul_of_div_eq_div hden hden' h
  by_cases hnum : num = 0
  · subst hnum
    have hnum' : num' = 0 := by
      rw [Nat.zero_mul] at hcross
      exact (Nat.mul_eq_zero.1 hcross.symm).resolve_right hden.ne'
    rw [hnum', round?, round?, if_pos rfl, if_pos rfl]
  · have hnum' : num' ≠ 0 := by
      rintro rfl
      rw [Nat.zero_mul] at hcross
      exact hnum ((Nat.mul_eq_zero.1 hcross).resolve_right hden'.ne')
    obtain ⟨e, hfills, hexponent⟩ := exponentFor_spec hf (Nat.pos_of_ne_zero hnum) hden
    obtain ⟨e', hfills', hexponent'⟩ := exponentFor_spec hf (Nat.pos_of_ne_zero hnum') hden'
    have hsame : f.exponentFor num den = f.exponentFor num' den' := by
      rw [hexponent, hexponent', hfills.unique (h ▸ hfills')]
    obtain ⟨hpos, hscaled⟩ := scaleDown_spec num hden (f.exponentFor num' den')
    obtain ⟨hpos', hscaled'⟩ := scaleDown_spec num' hden' (f.exponentFor num' den')
    have hmantissa := roundDiv_congr hpos hpos'
      (mul_eq_mul_of_div_eq_div hpos hpos' (by rw [hscaled, hscaled', h]))
    simp only [round?, if_neg hnum, if_neg hnum', hsame, hmantissa]

/-- A quotient without remainder is not rounded. -/
theorem roundDiv_mul (n : Nat) (hden : 0 < den) : roundDiv (n * den) den = n := by
  simp [roundDiv, Nat.mul_div_cancel _ hden, hden.ne]

/-- A mantissa and an exponent that the format has. -/
structure Holds (f : BinaryFormat) (x : Scaled) : Prop where
  pos : 0 < x.mantissa
  lt : x.mantissa < 2 ^ f.precision
  ge : f.minExponent ≤ x.exponent
  le : x.exponent ≤ f.maxExponent
  full : 2 ^ (f.precision - 1) ≤ x.mantissa ∨ x.exponent = f.minExponent

/-- What a format holds is positive. -/
theorem Holds.value_pos {f : BinaryFormat} {x : Scaled} (h : f.Holds x) : 0 < x.value := by
  have hpos : (0 : ℚ) < x.mantissa := by exact_mod_cast h.pos
  exact mul_pos hpos (zpow_pos two_pos _)

/-- What a format holds is less than the next power of two. -/
theorem Holds.value_lt {f : BinaryFormat} {x : Scaled} (h : f.Holds x) : x.value < 2 ^ (f.precision + x.exponent : Int) := by
  have hlt : (x.mantissa : ℚ) < 2 ^ f.precision := by exact_mod_cast h.lt
  rw [Scaled.value, zpow_add₀ two_ne_zero, zpow_natCast]
  exact mul_lt_mul_of_pos_right hlt (zpow_pos two_pos _)

/-- A number of the format is rounded to itself. -/
theorem round?_exact {f : BinaryFormat} (hf : 0 < f.precision) {x : Scaled} (hx : f.Holds x) (hden : 0 < den)
    (h : (num / den : ℚ) = x.value) : f.round? num den = some x := by
  have hdenQ : (0 : ℚ) < den := by exact_mod_cast hden
  have hnum : 0 < num := by
    have hpos := hx.value_pos
    rw [← h, div_pos_iff_of_pos_right hdenQ] at hpos
    exact_mod_cast hpos
  obtain ⟨e, hfills, hexponent⟩ := exponentFor_spec hf hnum hden
  have hsame : f.exponentFor num den = x.exponent := by
    rw [hexponent]
    rw [h] at hfills
    rcases hx.full with hfull | hleast
    · have hfull : (2 : ℚ) ^ (f.precision - 1) ≤ x.mantissa := by exact_mod_cast hfull
      have hown : f.Fills x.value x.exponent := by
        refine ⟨?_, hx.value_lt⟩
        have hsplit : (2 : ℚ) ^ (f.precision + x.exponent - 1 : Int) = 2 ^ (f.precision - 1) * 2 ^ x.exponent := by
          rw [← zpow_natCast, ← zpow_add₀ two_ne_zero]
          congr 1
          omega
        rw [hsplit]
        exact mul_le_mul_of_nonneg_right hfull (zpow_pos two_pos _).le
      rw [hfills.unique hown]
      exact max_eq_left hx.ge
    · have hlt := (zpow_lt_zpow_iff_right₀ one_lt_two).1 (hfills.1.trans_lt hx.value_lt)
      omega
  obtain ⟨hpos, hscaled⟩ := scaleDown_spec num hden x.exponent
  have hmantissa : (scaleDown num den x.exponent).1 = x.mantissa * (scaleDown num den x.exponent).2 := by
    have hposQ : (0 : ℚ) < (scaleDown num den x.exponent).2 := by exact_mod_cast hpos
    rw [h, Scaled.value, mul_div_cancel_right₀ _ (zpow_pos two_pos _).ne', div_eq_iff hposQ.ne'] at hscaled
    exact_mod_cast hscaled
  have hround : roundDiv (scaleDown num den x.exponent).1 (scaleDown num den x.exponent).2 = x.mantissa := by
    rw [hmantissa, roundDiv_mul _ hpos]
  have hcarry : x.mantissa ≠ pow2 f.precision := hx.lt.ne
  simp only [round?, if_neg hnum.ne', hsame, hround, if_neg hcarry, if_neg (not_lt.2 hx.le)]

/-- A number of the format is rounded to itself, however it is scaled. -/
theorem roundScaled?_exact {f : BinaryFormat} (hf : 0 < f.precision) {x y : Scaled} (hx : f.Holds x) (h : y.value = x.value) :
    f.roundScaled? y = some x := by
  have hround : f.roundScaled? y =
      f.round? (powerRatio 2 y.mantissa y.exponent).1 (powerRatio 2 y.mantissa y.exponent).2 := by
    unfold roundScaled? powerRatio
    split <;> rfl
  obtain ⟨hden, hratio⟩ := powerRatio_spec two_pos y.mantissa y.exponent
  rw [hround]
  exact round?_exact hf hx hden (hratio.trans h)

end BinaryFormat

end Whiteboard
