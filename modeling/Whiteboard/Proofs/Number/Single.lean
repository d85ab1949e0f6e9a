import Mathlib

/-!
# Single precision numbers as rational ones

`Denotes x q` says that the number `x` is finite and stands for `q`. Sums, products and comparisons are described by what
they do to what numbers stand for.

Whole numbers of 24 bits are added, subtracted, multiplied and halved without an error as long as the result has 24 bits too,
so a layout on whole coordinates is exact. Once it has been moved by an arbitrary distance that is so no more, and what is
left is that each number is near the one that is meant (`IsNear`).
-/

namespace Whiteboard.Single

open Float.Model Float.Model.UnpackedFloat

/-! ## What is stored -/

/-- The shape of what is stored: a mantissa of 24 bits, unless the exponent is the least one. -/
structure IsStored (m : Nat) (e : Int) : Prop where
  lt : m < 2 ^ 24
  ge : -149 ≤ e
  le : e ≤ 104
  full : 2 ^ 23 ≤ m ∨ e = -149

/-- What is stored is read back as it is. -/
def IsPacked : UnpackedFloat → Prop
  | .finite _ m e _ => IsStored m e
  | _ => True

/-- What is unpacked can be stored. -/
theorem isPacked_unpack (b : BitVec Format.binary32.numBits) : IsPacked (UnpackedFloat.unpack Format.binary32 b) := by
  have hexponent : (unpackExponent b).toNat < 2 ^ 8 := (unpackExponent b).isLt
  have hmantissa : (unpackMantissa b).toNat < 2 ^ 23 := (unpackMantissa b).isLt
  have hbias : ((Format.binary32.exponentBias : Nat) : Int) = 127 := by decide
  rw [UnpackedFloat.unpack]
  simp only [hbias]
  split
  · split <;> exact trivial
  · rename_i hones
    have hones : (unpackExponent b).toNat ≠ 255 := fun h => hones (BitVec.eq_of_toNat_eq h)
    split
    · rename_i hzero
      split
      · exact trivial
      · rw [IsPacked, hzero]
        exact ⟨by omega, by decide, by decide, .inr (by decide)⟩
    · rename_i hzero
      have hzero : (unpackExponent b).toNat ≠ 0 := fun h => hzero (BitVec.eq_of_toNat_eq h)
      have hlong : (1#1 ++ unpackMantissa b).toNat = 2 ^ 23 + (unpackMantissa b).toNat := by
        rw [BitVec.toNat_append, ← Nat.shiftLeft_add_eq_or_of_lt hmantissa]
        rfl
      rw [IsPacked, hlong]
      exact ⟨by omega, by push_cast; omega, by push_cast; omega, .inl (by omega)⟩

/-- A number with a mantissa of 24 bits, read back. -/
theorem unpack_normal (s : Sign) {k m : Nat} (hk : 0 < k) (hk' : k < 255) (hm : 2 ^ 23 ≤ m) (hm' : m < 2 ^ 24) :
    UnpackedFloat.unpack Format.binary32 (packComponents Format.binary32 s (BitVec.ofNat 8 k) (BitVec.ofNat 23 m)) =
      .finite s m (k - 150) (by omega) := by
  have hones : BitVec.ofNat 8 k ≠ -1#8 := by
    intro h
    have := congrArg BitVec.toNat h
    simp at this
    omega
  have hzero : BitVec.ofNat 8 k ≠ 0#8 := by
    intro h
    have := congrArg BitVec.toNat h
    simp at this
    omega
  have hlong : (1#1 ++ BitVec.ofNat 23 m).toNat = m := by
    rw [BitVec.toNat_append, ← Nat.shiftLeft_add_eq_or_of_lt (BitVec.ofNat 23 m).isLt, BitVec.toNat_ofNat]
    change 2 ^ 23 + m % 2 ^ 23 = m
    omega
  have hbias : ((Format.binary32.exponentBias : Nat) + (23 : Nat) : Int) = 150 := by decide
  have hexponent : (BitVec.ofNat 8 k).toNat = k := by
    rw [BitVec.toNat_ofNat]
    omega
  simp only [UnpackedFloat.unpack, unpackExponent_packComponents, unpackMantissa_packComponents,
    unpackSign_packComponents, Sign.ofBitVec_toBitVec, hones, hzero, if_false, hbias, hlong, hexponent]

/-- A number with a shorter mantissa, read back. -/
theorem unpack_subnormal (s : Sign) {m : Nat} (hm : 0 < m) (hm' : m < 2 ^ 23) :
    UnpackedFloat.unpack Format.binary32 (packComponents Format.binary32 s 0#8 (BitVec.ofNat 23 m)) =
      .finite s m (-149) hm := by
  have hones : (0#8) ≠ -1#8 := by decide
  have hshort : (BitVec.ofNat 23 m).toNat = m := by
    rw [BitVec.toNat_ofNat]
    omega
  have hzero : BitVec.ofNat 23 m ≠ 0#23 := by
    intro h
    have := congrArg BitVec.toNat h
    rw [hshort] at this
    exact hm.ne' this
  have hbias : (((0#8).toNat : Nat) : Int) - ((Format.binary32.exponentBias : Nat) + (23 : Nat)) + 1 = -149 := by decide
  simp only [UnpackedFloat.unpack, unpackExponent_packComponents, unpackMantissa_packComponents,
    unpackSign_packComponents, Sign.ofBitVec_toBitVec, hones, hzero, if_false, if_true, dif_neg, not_false_eq_true, hbias,
    hshort]

/-- What has the shape of what is stored is stored without loss. -/
theorem unpack_pack {u : UnpackedFloat} (h : IsPacked u) :
    UnpackedFloat.unpack Format.binary32 (UnpackedFloat.pack Format.binary32 u) = u := by
  cases u with
  | infinity s => simp [UnpackedFloat.pack, packedInfinity, UnpackedFloat.unpack]
  | notANumber => exact unpack_packedNaN
  | zero s => exact unpack_packedZero
  | finite s m e hm =>
    obtain ⟨hlt, hge, hle, hfull⟩ := h
    have hbias : ((Format.binary32.exponentBias : Nat) : Int) = 127 := by decide
    have hbits : Format.binary32.mantissaBits = 24 := by decide
    have hsmall : ¬ 2 ^ 8 ≤ (e + 127 + (23 : Nat)).toNat + 1 := by omega
    rw [UnpackedFloat.pack]
    simp only [hbias, hbits, hsmall, if_false]
    by_cases hnormal : m.log2 + 1 = 24
    · rw [if_pos hnormal, unpack_normal s (by omega) (by omega) ((Nat.le_log2 (by omega)).1 (by omega)) hlt]
      congr 1
      omega
    · have hshort : m < 2 ^ 23 := by
        have := (Nat.log2_lt hm.ne').2 hlt
        exact (Nat.log2_lt hm.ne').1 (by omega)
      rw [if_neg hnormal, unpack_subnormal s hm hshort]
      congr 1
      omega

/-! ## Rounding -/

/-- The exponent that a number with this mantissa and exponent is rounded to. -/
def grid (m : Nat) (e : Int) : Int := max (m.log2 + e - 23) (-149)

/-- The exponent that the library rounds to is the grid. -/
theorem targetExponent_eq_grid (m : Nat) (e : Int) :
    Format.binary32.targetExponent (totalExponent m e) = grid m e := by
  have hbits : ((Format.binary32.mantissaBits : Nat) : Int) = 24 := by decide
  have hmin : Format.binary32.minExponent = -149 := by decide
  rw [Format.targetExponent, totalExponent, hbits, hmin, grid]
  congr 1
  omega

/-- Shifting a mantissa to the right divides it by a power of two. -/
theorem mantissa_shiftRight (em : ExtendedMantissa) (k : Nat) : (em >>> k).mantissa = em.mantissa / 2 ^ k := by
  induction k with
  | zero => exact (Nat.div_one _).symm
  | succ k ih =>
    change (em >>> k).mantissa / 2 = _
    rw [ih, Nat.div_div_eq_div_mul, Nat.pow_succ]

/-- A mantissa is kept whatever its accuracy is. -/
theorem mantissa_ofMantissaAndAccuracy (m : Nat) (acc : Accuracy) :
    (ExtendedMantissa.ofMantissaAndAccuracy m acc).mantissa = m := by
  rcases acc with _ | (_ | _ | _) <;> rfl

/-- Rounding leaves a mantissa or adds one to it. -/
theorem roundedMantissa_bounds (em : ExtendedMantissa) :
    em.mantissa ≤ em.roundedMantissa ∧ em.roundedMantissa ≤ em.mantissa + 1 := by
  obtain ⟨m, round, sticky⟩ := em
  cases round <;> cases sticky <;>
    simp only [ExtendedMantissa.roundedMantissa, ExtendedMantissa.accuracy, Accuracy.roundToNearestEven] <;> omega

/-- What is left of an exact mantissa stays exact as long as no bit is lost. -/
theorem shiftRight_of_dvd {m k : Nat} (h : 2 ^ k ∣ m) :
    (⟨m, false, false⟩ : ExtendedMantissa) >>> k = ⟨m / 2 ^ k, false, false⟩ := by
  induction k with
  | zero => simp [HShiftRight.hShiftRight, Nat.repeat]
  | succ k ih =>
    change ExtendedMantissa.shiftRightOne ((⟨m, false, false⟩ : ExtendedMantissa) >>> k) = _
    obtain ⟨j, rfl⟩ := h
    have hk : 2 ^ (k + 1) * j / 2 ^ k = 2 * j := by
      rw [Nat.pow_succ, Nat.mul_assoc, Nat.mul_div_cancel_left _ (Nat.two_pow_pos k)]
    rw [ih ⟨2 * j, by rw [Nat.pow_succ]; ring⟩, hk, Nat.mul_div_cancel_left _ (Nat.two_pow_pos (k + 1))]
    simp [ExtendedMantissa.shiftRightOne]

/-- The number with this sign, mantissa and exponent. -/
def scaled (s : Sign) (m : Nat) (e : Int) : ℚ := (s.apply m : Int) * 2 ^ e

theorem scaled_negative (m : Nat) (e : Int) : scaled .negative m e = -(m * 2 ^ e) := by
  rw [scaled, Sign.apply, Int.cast_neg, neg_mul, Int.cast_natCast]

theorem scaled_positive (m : Nat) (e : Int) : scaled .positive m e = m * 2 ^ e := rfl

/-- What a number stands for, if it is finite. -/
def value? : UnpackedFloat → Option ℚ
  | .zero _ => some 0
  | .finite s m e _ => some (scaled s m e)
  | .infinity _ | .notANumber => none

/-- The mantissa of what is rounded, before it is known whether it has become too long. -/
def rounded (m : Nat) (e : Int) (acc : Accuracy) : Nat :=
  (ExtendedMantissa.ofMantissaAndAccuracy m acc >>> (grid m e - e).toNat).roundedMantissa

/-- A mantissa is shifted to the grid. -/
theorem shiftToTargetExponent_eq (m : Nat) (e : Int) (acc : Accuracy) :
    shiftToTargetExponent Format.binary32 m e acc =
      (ExtendedMantissa.ofMantissaAndAccuracy m acc >>> (grid m e - e).toNat, e + (grid m e - e).toNat) := by
  rw [shiftToTargetExponent, targetExponent_eq_grid, shiftToExponent]

/-- The rounded mantissa is that on the grid, or one more. -/
theorem rounded_bounds (m : Nat) (e : Int) (acc : Accuracy) :
    m / 2 ^ (grid m e - e).toNat ≤ rounded m e acc ∧ rounded m e acc ≤ m / 2 ^ (grid m e - e).toNat + 1 := by
  have h := roundedMantissa_bounds (ExtendedMantissa.ofMantissaAndAccuracy m acc >>> (grid m e - e).toNat)
  rwa [mantissa_shiftRight, mantissa_ofMantissaAndAccuracy] at h

/-- The quotient has 24 bits, or fewer at the least exponent. -/
theorem quotient_bounds {m : Nat} {e : Int} (hm : m ≠ 0) (he : e ≤ grid m e) :
    m / 2 ^ (grid m e - e).toNat < 2 ^ 24 ∧ (2 ^ 23 ≤ m / 2 ^ (grid m e - e).toNat ∨ grid m e = -149) := by
  obtain ⟨k, hk⟩ : ∃ k : Nat, grid m e = e + k := ⟨(grid m e - e).toNat, by omega⟩
  have hlow : 2 ^ m.log2 ≤ m := Nat.log2_self_le hm
  have hhigh : m < 2 ^ (m.log2 + 1) := Nat.lt_log2_self
  rw [show (grid m e - e).toNat = k by omega]
  refine ⟨?_, ?_⟩
  · rw [Nat.div_lt_iff_lt_mul (Nat.two_pow_pos k), ← Nat.pow_add]
    refine hhigh.trans_le (Nat.pow_le_pow_right (by decide) ?_)
    unfold grid at hk
    omega
  · by_cases hleast : grid m e = -149
    · exact .inr hleast
    · refine .inl ?_
      rw [Nat.le_div_iff_mul_le (Nat.two_pow_pos k), ← Nat.pow_add]
      refine (Nat.pow_le_pow_right (by decide) ?_).trans hlow
      unfold grid at hk hleast
      omega

/-- A rounded mantissa that has not become too long stays as it is. -/
theorem grid_eq_self {r : Nat} {g : Int} (hr : r ≠ 0) (hlt : r < 2 ^ 24) (hg : -149 ≤ g) (hfull : 2 ^ 23 ≤ r ∨ g = -149) :
    grid r g = g := by
  have hhigh : r.log2 < 24 := (Nat.log2_lt hr).2 hlt
  rw [grid]
  rcases hfull with hfull | hfull
  · have hlow : 23 ≤ r.log2 := (Nat.le_log2 hr).2 hfull
    omega
  · omega

/-- The number with this sign, mantissa and exponent, as it is stored. -/
def store (s : Sign) (m : Nat) (e : Int) : UnpackedFloat :=
  if h : m = 0 then .zero s else .finite s m e (Nat.pos_of_ne_zero h)

/-- A number of the right shape can be stored. -/
theorem isPacked_store (s : Sign) {m : Nat} {e : Int} (h : m ≠ 0 → IsStored m e) : IsPacked (store s m e) := by
  rw [store]
  split
  · exact trivial
  · exact h ‹_›

/-- What is stored stands for the number itself. -/
theorem value?_store (s : Sign) (m : Nat) (e : Int) : value? (store s m e) = some (scaled s m e) := by
  rw [store]
  split
  · rename_i hm
    cases s <;> simp [hm, value?, scaled, Sign.apply]
  · rfl

/-- What is rounded is stored, after one more shift if the mantissa has become too long. -/
theorem roundWithAccuracy_eq_store (s : Sign) (m : Nat) (e : Int) (acc : Accuracy) (he : e ≤ grid m e) :
    roundWithAccuracy Format.binary32 s m e acc =
      store s (rounded m e acc / 2 ^ (grid (rounded m e acc) (grid m e) - grid m e).toNat)
        (grid m e + (grid (rounded m e acc) (grid m e) - grid m e).toNat) := by
  have hstore : roundWithAccuracy Format.binary32 s m e acc = store s
      (shiftToTargetExponent Format.binary32 (shiftToTargetExponent Format.binary32 m e acc).1.roundedMantissa
        (shiftToTargetExponent Format.binary32 m e acc).2 .exact).1.mantissa
      (shiftToTargetExponent Format.binary32 (shiftToTargetExponent Format.binary32 m e acc).1.roundedMantissa
        (shiftToTargetExponent Format.binary32 m e acc).2 .exact).2 := rfl
  have hexponent : e + ((grid m e - e).toNat : Int) = grid m e := by omega
  rw [hstore, shiftToTargetExponent_eq m e, ← rounded]
  simp only [hexponent, shiftToTargetExponent_eq, mantissa_shiftRight, mantissa_ofMantissaAndAccuracy]

/-- What is rounded is stored without loss, and stands for the rounded mantissa, also where this has become a power of two that
is one bit too long. -/
theorem roundWithAccuracy_value (s : Sign) {m : Nat} {e : Int} (acc : Accuracy) (hm : m ≠ 0) (he : e ≤ grid m e)
    (hg : grid m e < 104) : IsPacked (roundWithAccuracy Format.binary32 s m e acc) ∧
      value? (roundWithAccuracy Format.binary32 s m e acc) = some (scaled s (rounded m e acc) (grid m e)) := by
  obtain ⟨hlt, hfull⟩ := quotient_bounds hm he
  obtain ⟨hle, hge⟩ := rounded_bounds m e acc
  have hleast : -149 ≤ grid m e := le_max_right _ _
  rw [roundWithAccuracy_eq_store s m e acc he, value?_store]
  generalize rounded m e acc = r at *
  rcases (show r < 2 ^ 24 ∨ r = 2 ^ 24 by omega) with hr | rfl
  · have hsame : r ≠ 0 → grid r (grid m e) = grid m e := fun hzero => grid_eq_self hzero hr hleast (by omega)
    rcases Nat.eq_zero_or_pos r with rfl | hpos
    · refine ⟨isPacked_store s fun h => absurd (Nat.zero_div _) h, ?_⟩
      cases s <;> simp [scaled, Sign.apply]
    · rw [hsame hpos.ne', Int.sub_self]
      simp only [Int.toNat_zero, Nat.pow_zero, Nat.div_one, Int.natCast_zero, add_zero, and_true]
      exact isPacked_store s fun _ => ⟨hr, hleast, by omega, by omega⟩
  · have hone : (grid (2 ^ 24) (grid m e) - grid m e).toNat = 1 := by
      rw [grid, Nat.log2_two_pow]
      omega
    rw [hone]
    refine ⟨isPacked_store s fun _ => ⟨by decide, by omega, by omega, .inl (by decide)⟩, ?_⟩
    rw [scaled, scaled, zpow_add₀ two_ne_zero]
    cases s <;> norm_num [Sign.apply] <;> ring

/-- What stands for `v` rounded to a multiple of `2 ^ g`, and is stored without loss. -/
structure Rounds (u : UnpackedFloat) (v : ℚ) (g : Int) : Prop where
  packed : IsPacked u
  near : ∃ q, value? u = some q ∧ |q - v| ≤ 2 ^ g ∧ ((∃ n : Int, v = n * 2 ^ g) → q = v)

/-- The sign makes no difference to how far two numbers are apart. -/
theorem abs_scaled_sub_scaled (s : Sign) (r m : Nat) (g e : Int) :
    |scaled s r g - scaled s m e| = |(r : ℚ) * 2 ^ g - m * 2 ^ e| := by
  cases s with
  | negative => rw [scaled_negative, scaled_negative, neg_sub_neg, abs_sub_comm]
  | positive => rfl

theorem abs_scaled (s : Sign) (m : Nat) (e : Int) : |scaled s m e| = (m : ℚ) * 2 ^ e := by
  have h : (0 : ℚ) ≤ m * 2 ^ e := by positivity
  cases s with
  | negative => rw [scaled_negative, abs_neg, abs_of_nonneg h]
  | positive => rw [scaled_positive, abs_of_nonneg h]

/-- Where no bit is lost the mantissa is a quotient without remainder. -/
theorem rounded_exact {m : Nat} {e : Int} (h : 2 ^ (grid m e - e).toNat ∣ m) :
    rounded m e .exact = m / 2 ^ (grid m e - e).toNat := by
  rw [rounded, ExtendedMantissa.ofMantissaAndAccuracy, shiftRight_of_dvd h]
  rfl

/-- A number that ends behind the grid is rounded to it. -/
theorem roundWithAccuracy_rounds (s : Sign) {m : Nat} {e : Int} (hm : m ≠ 0) (he : e ≤ grid m e) (hg : grid m e < 104) :
    Rounds (roundWithAccuracy Format.binary32 s m e .exact) (scaled s m e) (grid m e) := by
  obtain ⟨hpacked, hvalue⟩ := roundWithAccuracy_value s .exact hm he hg
  obtain ⟨hle, hge⟩ := rounded_bounds m e .exact
  have hexact := rounded_exact (m := m) (e := e)
  obtain ⟨k, hk⟩ : ∃ k : Nat, grid m e = e + k := ⟨(grid m e - e).toNat, by omega⟩
  rw [show (grid m e - e).toNat = k by omega] at hle hge hexact
  have hscale : (2 : ℚ) ^ grid m e = 2 ^ e * 2 ^ k := by rw [hk, zpow_add₀ two_ne_zero, zpow_natCast]
  have hpos : (0 : ℚ) < 2 ^ e := by positivity
  have hdist : |scaled s (rounded m e .exact) (grid m e) - scaled s m e| = 2 ^ e * |(rounded m e .exact * 2 ^ k - m : ℚ)| := by
    rw [abs_scaled_sub_scaled, hscale, ← abs_of_pos hpos, ← abs_mul, abs_of_pos hpos]
    ring_nf
  refine ⟨hpacked, _, hvalue, ?_, ?_⟩
  · rw [hdist, hscale]
    refine mul_le_mul_of_nonneg_left ?_ hpos.le
    have hlow : m < (m / 2 ^ k + 1) * 2 ^ k := (Nat.div_lt_iff_lt_mul (Nat.two_pow_pos k)).1 (Nat.lt_succ_self _)
    have hhigh : m / 2 ^ k * 2 ^ k ≤ m := Nat.div_mul_le_self m (2 ^ k)
    have hle' : m / 2 ^ k * 2 ^ k ≤ rounded m e .exact * 2 ^ k := Nat.mul_le_mul_right _ hle
    have hge' : rounded m e .exact * 2 ^ k ≤ (m / 2 ^ k + 1) * 2 ^ k := Nat.mul_le_mul_right _ hge
    rw [Nat.add_one_mul] at hlow hge'
    have hnear : |((rounded m e .exact * 2 ^ k : Nat) - m : Int)| ≤ (2 ^ k : Nat) := abs_le.2 ⟨by omega, by omega⟩
    exact_mod_cast hnear
  · rintro ⟨n, hn⟩
    have hmul : m = n.natAbs * 2 ^ k := by
      have hgrid : (0 : ℚ) < 2 ^ grid m e := by positivity
      have habs : |scaled s m e| = |(n : ℚ) * 2 ^ grid m e| := by rw [hn]
      rw [abs_scaled, abs_mul, abs_of_pos hgrid, hscale, ← Int.cast_abs, Int.abs_eq_natAbs,
        mul_left_comm, mul_comm (m : ℚ)] at habs
      exact_mod_cast mul_left_cancel₀ hpos.ne' habs
    have hquotient : m / 2 ^ k = n.natAbs := by rw [hmul, Nat.mul_div_cancel _ (Nat.two_pow_pos k)]
    rw [← sub_eq_zero, ← abs_eq_zero, hdist, hexact ⟨n.natAbs, by rw [mul_comm, ← hmul]⟩, hquotient, hmul]
    simp

/-- Zeros at the end of a mantissa do not change what it is rounded to. -/
theorem grid_shiftLeft {m : Nat} (hm : m ≠ 0) (e : Int) (k : Nat) : grid (m <<< k) (e - k) = grid m e := by
  have hlow : 2 ^ m.log2 ≤ m := Nat.log2_self_le hm
  have hhigh : m < 2 ^ (m.log2 + 1) := Nat.lt_log2_self
  have hlog : (m <<< k).log2 = m.log2 + k := by
    rw [Nat.shiftLeft_eq, Nat.log2_eq_iff (Nat.mul_ne_zero hm (Nat.two_pow_pos k).ne'), Nat.pow_add,
      show m.log2 + k + 1 = m.log2 + 1 + k by omega, Nat.pow_add 2 (m.log2 + 1)]
    exact ⟨Nat.mul_le_mul_right _ hlow, Nat.mul_lt_mul_of_pos_right hhigh (Nat.two_pow_pos k)⟩
  rw [grid, grid, hlog]
  congr 1
  omega

/-- Shifting a mantissa to the left and its exponent back leaves the number. -/
theorem scaled_shiftLeft (s : Sign) (m : Nat) (e : Int) (k : Nat) : scaled s (m <<< k) (e - k) = scaled s m e := by
  have hscale : ((m <<< k : Nat) : ℚ) * 2 ^ (e - k) = m * 2 ^ e := by
    rw [Nat.shiftLeft_eq, zpow_sub₀ two_ne_zero, zpow_natCast]
    push_cast
    field_simp
  cases s with
  | negative => rw [scaled_negative, scaled_negative, hscale]
  | positive => rw [scaled_positive, scaled_positive, hscale]

/-- Every number that is not too large is rounded to its grid. -/
theorem round_rounds (s : Sign) {m : Nat} {e : Int} (hm : m ≠ 0) (hg : grid m e < 104) :
    Rounds (UnpackedFloat.round Format.binary32 s m e) (scaled s m e) (grid m e) := by
  have hround : UnpackedFloat.round Format.binary32 s m e = roundWithAccuracy Format.binary32 s (m <<< (e - grid m e).toNat)
      (e - (e - grid m e).toNat) .exact := by
    rw [UnpackedFloat.round, targetExponent_eq_grid]
    rfl
  have hm' : m <<< (e - grid m e).toNat ≠ 0 := by
    rw [Nat.shiftLeft_eq]
    exact Nat.mul_ne_zero hm (Nat.two_pow_pos _).ne'
  have h := roundWithAccuracy_rounds s (e := e - (e - grid m e).toNat) hm'
  rw [grid_shiftLeft hm, scaled_shiftLeft] at h
  rw [hround]
  exact h (by omega) hg

/-- The exponent that a number is rounded to goes with its size. -/
theorem grid_le {m : Nat} {e n : Int} (hm : m ≠ 0) (h : (m : ℚ) * 2 ^ e < 2 ^ n) (hn : -125 ≤ n) : grid m e ≤ n - 24 := by
  have hlow : ((2 : ℚ) ^ (m.log2 : Int)) ≤ m := by
    rw [zpow_natCast]
    exact_mod_cast Nat.log2_self_le hm
  have hpow : (2 : ℚ) ^ ((m.log2 : Int) + e) < 2 ^ n := by
    rw [zpow_add₀ two_ne_zero]
    exact (mul_le_mul_of_nonneg_right hlow (zpow_pos two_pos _).le).trans_lt h
  have hlog : (m.log2 : Int) + e < n := (zpow_lt_zpow_iff_right₀ one_lt_two).1 hpow
  rw [grid]
  omega

/-- What stands for `v` as it is rounded where all numbers are less than `2 ^ n`: with an error of at most one in the last of
24 places, and without one if `v` ends before that place. -/
def IsRounded (u : UnpackedFloat) (v : ℚ) : Prop :=
  ∀ n : Int, -125 ≤ n → n ≤ 127 → |v| < 2 ^ n → Rounds u v (n - 24)

/-- What is rounded to a fine grid is rounded to a coarser one. -/
theorem Rounds.mono {u : UnpackedFloat} {v : ℚ} {g g' : Int} (h : Rounds u v g) (hg : g ≤ g') : Rounds u v g' := by
  obtain ⟨hpacked, q, hq, hnear, hexact⟩ := h
  refine ⟨hpacked, q, hq, hnear.trans (zpow_le_zpow_right₀ one_le_two hg), ?_⟩
  rintro ⟨n, hn⟩
  refine hexact ⟨n * 2 ^ (g' - g).toNat, ?_⟩
  rw [hn]
  push_cast
  rw [← zpow_natCast, mul_assoc, ← zpow_add₀ two_ne_zero]
  congr 2
  omega

/-- Every number is rounded. -/
theorem round_isRounded (s : Sign) {m : Nat} (hm : m ≠ 0) (e : Int) :
    IsRounded (UnpackedFloat.round Format.binary32 s m e) (scaled s m e) := by
  intro n hlow hhigh hsize
  have hgrid : grid m e ≤ n - 24 := grid_le hm (by rwa [← abs_scaled s]) hlow
  exact (round_rounds s hm (by omega)).mono hgrid

/-- Zero is rounded. -/
theorem zero_isRounded (s : Sign) : IsRounded (.zero s) 0 := by
  intro n _ _ _
  refine ⟨trivial, 0, rfl, ?_, fun _ => rfl⟩
  rw [sub_zero, abs_zero]
  positivity

/-- A number given by a signed mantissa is rounded. -/
theorem normalize_isRounded (mantissa e : Int) (zero : Sign) :
    IsRounded (UnpackedFloat.normalize Format.binary32 mantissa e zero) (mantissa * 2 ^ e) := by
  rw [UnpackedFloat.normalize]
  split
  case h_1 h =>
    have hneg : mantissa < 0 := compare_lt_iff_lt.1 h
    have hscaled : scaled .negative (-mantissa).toNat e = mantissa * 2 ^ e := by
      rw [scaled, Sign.apply, Int.toNat_of_nonneg (by omega), neg_neg]
    rw [← hscaled]
    exact round_isRounded .negative (by omega) e
  case h_2 h =>
    rw [compare_eq_iff_eq.1 h, Int.cast_zero, zero_mul]
    exact zero_isRounded zero
  case h_3 h =>
    have hpos : 0 < mantissa := compare_gt_iff_gt.1 h
    have hscaled : scaled .positive mantissa.toNat e = mantissa * 2 ^ e := by
      rw [scaled, Sign.apply, Int.toNat_of_nonneg (by omega)]
    rw [← hscaled]
    exact round_isRounded .positive (by omega) e

/-! ## What numbers stand for -/

/-- The number `x` is finite and stands for `q`. -/
def Denotes (x : Float32) (q : ℚ) : Prop := value? x.toModel.unpack = some q

instance (x : Float32) (q : ℚ) : Decidable (Denotes x q) :=
  inferInstanceAs (Decidable (value? x.toModel.unpack = some q))

/-- A number stands for one value only. -/
theorem Denotes.unique {x : Float32} {p q : ℚ} (hp : Denotes x p) (hq : Denotes x q) : p = q :=
  Option.some.inj (hp.symm.trans hq)

/-- Every number can be stored. -/
theorem isPacked_unpack_toModel (x : Float32) : IsPacked x.toModel.unpack := isPacked_unpack _

/-- What is rounded and stored stands for a number nearby. -/
theorem IsRounded.exists_denotes {x : Float32} {u : UnpackedFloat} {v : ℚ} (h : IsRounded u v)
    (hx : x.toModel = .pack u) {n : Int} (hn : -125 ≤ n) (hn' : n ≤ 127) (hv : |v| < 2 ^ n) :
    ∃ q, Denotes x q ∧ |q - v| ≤ 2 ^ (n - 24) ∧ ((∃ k : Int, v = k * 2 ^ (n - 24)) → q = v) := by
  obtain ⟨hpacked, q, hq, hnear⟩ := h n hn hn' hv
  refine ⟨q, ?_, hnear⟩
  rw [Denotes, hx]
  exact (congrArg value? (unpack_pack hpacked)).trans hq

/-- A number of 24 bits is stored without loss. -/
theorem IsRounded.denotes {x : Float32} {u : UnpackedFloat} {k : Int} (h : IsRounded u k) (hx : x.toModel = .pack u)
    (hk : |k| < 2 ^ 24) : Denotes x k := by
  obtain ⟨q, hq, -, hexact⟩ := h.exists_denotes hx (n := 24) (by decide) (by decide) (by exact_mod_cast hk)
  rwa [hexact ⟨k, by norm_num⟩] at hq

/-! ## Arithmetic -/

/-- A number that can be stored is rounded already. -/
theorem isRounded_of_value? {u : UnpackedFloat} {q : ℚ} (hu : IsPacked u) (hq : value? u = some q) : IsRounded u q := by
  intro n _ _ _
  refine ⟨hu, q, hq, ?_, fun _ => rfl⟩
  rw [sub_self, abs_zero]
  positivity

/-- Two numbers are added at the smaller one of their exponents. -/
theorem scaled_decreaseExponent (s : Sign) (m : Nat) {e e' : Int} (h : e' ≤ e) :
    ((s.apply (decreaseExponent m e e').1 : Int) : ℚ) * 2 ^ e' = scaled s m e := by
  have hexponent : e - (e - e').toNat = e' := by omega
  rw [← scaled_shiftLeft s m e (e - e').toNat, hexponent]
  rfl

/-- A sum is rounded. -/
theorem isRounded_add {u v : UnpackedFloat} {p q : ℚ} (hu : IsPacked u) (hv : IsPacked v) (hp : value? u = some p)
    (hq : value? v = some q) : IsRounded (UnpackedFloat.add Format.binary32 u v) (p + q) := by
  cases u with
  | infinity s => cases hp
  | notANumber => cases hp
  | zero s =>
    obtain rfl : 0 = p := Option.some.inj hp
    rw [zero_add]
    cases v with
    | infinity s' => cases hq
    | notANumber => cases hq
    | zero s' =>
      obtain rfl : 0 = q := Option.some.inj hq
      rw [UnpackedFloat.add]
      split <;> exact zero_isRounded _
    | finite s' m' e' hm' => exact isRounded_of_value? hv hq
  | finite s m e hm =>
    cases v with
    | infinity s' => cases hq
    | notANumber => cases hq
    | zero s' =>
      obtain rfl : 0 = q := Option.some.inj hq
      rw [add_zero]
      exact isRounded_of_value? hu hp
    | finite s' m' e' hm' =>
      obtain rfl : scaled s m e = p := Option.some.inj hp
      obtain rfl : scaled s' m' e' = q := Option.some.inj hq
      rw [← scaled_decreaseExponent s m (min_le_left e e'), ← scaled_decreaseExponent s' m' (min_le_right e e'),
        ← add_mul, ← Int.cast_add]
      exact normalize_isRounded _ _ _

/-- The other sign makes a number negative. -/
theorem scaled_neg (s : Sign) (m : Nat) (e : Int) : scaled (-s) m e = -scaled s m e := by
  cases s with
  | negative => rw [scaled_negative, neg_neg]; rfl
  | positive => rw [scaled_positive, ← scaled_negative]; rfl

/-- The negative of a number can be stored. -/
theorem isPacked_neg {u : UnpackedFloat} (h : IsPacked u) : IsPacked u.neg := by
  cases u <;> exact h

/-- The negative of a number stands for the negative value. -/
theorem value?_neg (u : UnpackedFloat) : value? u.neg = (value? u).map (-·) := by
  cases u with
  | zero s => simp [UnpackedFloat.neg, value?]
  | finite s m e hm => simp [UnpackedFloat.neg, value?, scaled_neg]
  | infinity s => rfl
  | notANumber => rfl

/-- Subtracting is adding the negative. -/
theorem sub_eq_add (u v : UnpackedFloat) :
    UnpackedFloat.sub Format.binary32 u v = UnpackedFloat.add Format.binary32 u v.neg := by
  cases u <;> cases v <;> try rfl
  case finite.finite s m e hm s' m' e' hm' =>
    have happly : ∀ n : Int, -s'.apply n = (-s').apply n := by
      intro n
      cases s' with
      | negative => exact neg_neg n
      | positive => rfl
    rw [UnpackedFloat.neg, UnpackedFloat.sub, UnpackedFloat.add]
    simp only [Int.sub_eq_add_neg, happly]

/-- The size of a number can be stored. -/
theorem isPacked_abs {u : UnpackedFloat} (h : IsPacked u) : IsPacked u.abs := by
  cases u <;> exact h

/-- The size of a number stands for the absolute value. -/
theorem value?_abs (u : UnpackedFloat) : value? u.abs = (value? u).map (|·|) := by
  cases u with
  | zero s => simp [UnpackedFloat.abs, value?]
  | finite s m e hm => simp [UnpackedFloat.abs, value?, abs_scaled, scaled_positive]
  | infinity s => rfl
  | notANumber => rfl

/-- Signs, mantissas and exponents of a product. -/
theorem scaled_mul (s s' : Sign) (m m' : Nat) (e e' : Int) :
    scaled (s * s') (m * m') (e + e') = scaled s m e * scaled s' m' e' := by
  have hpow : (2 : ℚ) ^ (e + e') = 2 ^ e * 2 ^ e' := zpow_add₀ two_ne_zero e e'
  cases s <;> cases s' <;> simp only [scaled_negative, scaled_positive, show Sign.negative * Sign.negative = .positive from rfl,
    show Sign.negative * Sign.positive = .negative from rfl, show Sign.positive * Sign.negative = .negative from rfl,
    show Sign.positive * Sign.positive = .positive from rfl] <;> rw [hpow] <;> push_cast <;> ring

/-- A number of which no bits are lost is rounded. -/
theorem roundWithAccuracy_isRounded (s : Sign) {m : Nat} {e : Int} (hm : m ≠ 0) (he : e ≤ grid m e) :
    IsRounded (roundWithAccuracy Format.binary32 s m e .exact) (scaled s m e) := by
  intro n hlow hhigh hsize
  have hgrid : grid m e ≤ n - 24 := grid_le hm (by rwa [← abs_scaled s]) hlow
  exact (roundWithAccuracy_rounds s hm he (by omega)).mono hgrid

/-- A number that is not less than one has a long mantissa. -/
theorem IsStored.long {m : Nat} {e : Int} (h : IsStored m e) (hone : 1 ≤ (m : ℚ) * 2 ^ e) : 2 ^ 23 ≤ m ∧ -23 ≤ e := by
  have hsize : (1 : ℚ) < 2 ^ (24 + e) := by
    refine hone.trans_lt ?_
    rw [zpow_add₀ two_ne_zero]
    refine mul_lt_mul_of_pos_right ?_ (zpow_pos two_pos _)
    exact_mod_cast h.lt
  have hpow : (2 : ℚ) ^ (0 : Int) < 2 ^ (24 + e) := by rwa [zpow_zero]
  have hexponent : 0 < 24 + e := (zpow_lt_zpow_iff_right₀ one_lt_two).1 hpow
  have hfull := h.full
  omega

/-- A whole number that is not zero is at least one in size. -/
theorem one_le_of_scaled_eq {s : Sign} {m : Nat} {e k : Int} (hm : 0 < m) (hk : scaled s m e = k) :
    1 ≤ (m : ℚ) * 2 ^ e := by
  have hpos : (0 : ℚ) < m * 2 ^ e := by positivity
  rw [← abs_scaled s, hk] at hpos ⊢
  exact_mod_cast Int.one_le_abs (Int.cast_ne_zero.1 (abs_pos.1 hpos))

section

variable {a b : Float32} {p q : ℚ}

/-- The sum of two finite numbers is rounded. -/
theorem Denotes.add_isRounded (ha : Denotes a p) (hb : Denotes b q) :
    IsRounded (UnpackedFloat.add Format.binary32 a.toModel.unpack b.toModel.unpack) (p + q) :=
  isRounded_add (isPacked_unpack_toModel a) (isPacked_unpack_toModel b) ha hb

/-- The difference of two finite numbers is rounded. -/
theorem Denotes.sub_isRounded (ha : Denotes a p) (hb : Denotes b q) :
    IsRounded (UnpackedFloat.sub Format.binary32 a.toModel.unpack b.toModel.unpack) (p - q) := by
  rw [sub_eq_add, sub_eq_add_neg]
  exact isRounded_add (isPacked_unpack_toModel a) (isPacked_neg (isPacked_unpack_toModel b)) ha
    (by rw [value?_neg, hb]; rfl)

/-- The sum of two numbers is a whole number if they are, and it is not too large. -/
theorem Denotes.add {k l : Int} (ha : Denotes a k) (hb : Denotes b l) (h : |k + l| < 2 ^ 24) : Denotes (a + b) (k + l : Int) :=
  IsRounded.denotes (by exact_mod_cast ha.add_isRounded hb) rfl h

/-- A small difference of whole numbers is exact. -/
theorem Denotes.sub {k l : Int} (ha : Denotes a k) (hb : Denotes b l) (h : |k - l| < 2 ^ 24) : Denotes (a - b) (k - l : Int) :=
  IsRounded.denotes (by exact_mod_cast ha.sub_isRounded hb) rfl h

/-- The size of a finite number is exact. -/
theorem Denotes.abs (ha : Denotes a p) : Denotes a.abs |p| := by
  have hpacked : IsPacked a.toModel.unpack.abs := isPacked_abs (isPacked_unpack_toModel a)
  rw [Denotes, show a.abs.toModel.unpack = a.toModel.unpack.abs from unpack_pack hpacked, value?_abs, ha]
  rfl

/-- The product of two whole numbers is rounded. -/
theorem Denotes.mul_isRounded {k l : Int} (ha : Denotes a k) (hb : Denotes b l) :
    IsRounded (UnpackedFloat.mul Format.binary32 a.toModel.unpack b.toModel.unpack) (k * l) := by
  have hapacked := isPacked_unpack_toModel a
  have hbpacked := isPacked_unpack_toModel b
  rw [Denotes] at ha hb
  generalize a.toModel.unpack = u at *
  generalize b.toModel.unpack = v at *
  cases u with
  | infinity s => cases ha
  | notANumber => cases ha
  | zero s =>
    rw [← Option.some.inj ha, zero_mul]
    cases v with
    | infinity s' => cases hb
    | notANumber => cases hb
    | zero s' => exact zero_isRounded _
    | finite s' m' e' hm' => exact zero_isRounded _
  | finite s m e hm =>
    cases v with
    | infinity s' => cases hb
    | notANumber => cases hb
    | zero s' =>
      rw [← Option.some.inj hb, mul_zero]
      exact zero_isRounded _
    | finite s' m' e' hm' =>
      obtain ⟨hlong, -⟩ := IsStored.long hapacked (one_le_of_scaled_eq hm (Option.some.inj ha))
      obtain ⟨hlong', -⟩ := IsStored.long hbpacked (one_le_of_scaled_eq hm' (Option.some.inj hb))
      have hlog : 46 ≤ (m * m').log2 :=
        (Nat.le_log2 (Nat.mul_pos hm hm').ne').2 (by rw [Nat.pow_add 2 23 23]; exact Nat.mul_le_mul hlong hlong')
      rw [← Option.some.inj ha, ← Option.some.inj hb, ← scaled_mul]
      refine roundWithAccuracy_isRounded _ (Nat.mul_pos hm hm').ne' ?_
      rw [grid]
      omega

/-- The product of whole numbers, if it is not too large. -/
theorem Denotes.mul {k l : Int} (ha : Denotes a k) (hb : Denotes b l) (h : |k * l| < 2 ^ 24) : Denotes (a * b) (k * l : Int) :=
  IsRounded.denotes (by exact_mod_cast ha.mul_isRounded hb) rfl h

/-- The product of whole numbers is rounded in proportion to its size. -/
theorem Denotes.exists_mul {k l : Int} (ha : Denotes a k) (hb : Denotes b l) (hpos : 0 < k * l) (h : k * l < 2 ^ 100) :
    ∃ r, Denotes (a * b) r ∧ |r - (k * l : Int)| ≤ (k * l : Int) / 2 ^ 23 := by
  have hsize : (0 : ℚ) < (k * l : Int) := by exact_mod_cast hpos
  obtain ⟨n, hlow, hhigh⟩ := exists_mem_Ico_zpow hsize one_lt_two
  have hn : 0 ≤ n := by
    have hone : (2 : ℚ) ^ (0 : Int) < 2 ^ (n + 1) := by
      rw [zpow_zero]
      exact (show (1 : ℚ) ≤ (k * l : Int) by exact_mod_cast hpos).trans_lt hhigh
    have := (zpow_lt_zpow_iff_right₀ one_lt_two).1 hone
    omega
  have hn' : n < 100 := by
    have hlarge : (2 : ℚ) ^ n < 2 ^ (100 : Int) := hlow.trans_lt (by exact_mod_cast h)
    exact (zpow_lt_zpow_iff_right₀ one_lt_two).1 hlarge
  have hround : IsRounded (UnpackedFloat.mul Format.binary32 a.toModel.unpack b.toModel.unpack) (k * l : Int) := by
    exact_mod_cast ha.mul_isRounded hb
  have hstored : (a * b).toModel = .pack (UnpackedFloat.mul Format.binary32 a.toModel.unpack b.toModel.unpack) := rfl
  obtain ⟨r, hr, hnear, -⟩ := hround.exists_denotes hstored (n := n + 1) (by omega) (by omega) (by rwa [abs_of_pos hsize])
  refine ⟨r, hr, hnear.trans ?_⟩
  rw [show n + 1 - 24 = n - 23 by omega, zpow_sub₀ two_ne_zero]
  exact div_le_div_of_nonneg_right hlow (by positivity)

/-- A mantissa of 24 bits and that of two have a quotient without remainder. -/
theorem divCore_two {m : Nat} {e : Int} (hm : 2 ^ 23 ≤ m) (hm' : m < 2 ^ 24) (he : -23 ≤ e) :
    divCore Format.binary32 m e (2 ^ 23) (-22) = (2 * m, e - 2, .exact) := by
  have hlog : m.log2 = 23 := (Nat.log2_eq_iff (by omega)).2 ⟨hm, hm'⟩
  have hbits : ((Format.binary32.mantissaBits : Nat) : Int) = 24 := by decide
  have hmin : Format.binary32.minExponent = -149 := by decide
  have htarget : min (e - -22) (Format.binary32.targetExponent (totalExponent m e - totalExponent (2 ^ 23) (-22))) = e - 2 := by
    rw [totalExponent, totalExponent, hlog, Nat.log2_two_pow, Format.targetExponent, hbits, hmin]
    omega
  have hshift : (e - -22 - (e - 2)).toNat = 24 := by omega
  have hquotient : m <<< 24 = 2 ^ 23 * (2 * m) := by
    rw [Nat.shiftLeft_eq]
    ring
  rw [divCore]
  simp only [htarget, hshift, hquotient, Nat.mul_div_cancel_left _ (Nat.two_pow_pos 23), Nat.mul_mod_right]
  rfl

/-- A mantissa twice as large at an exponent that is less by two stands for the half. -/
theorem scaled_half (s : Sign) (m : Nat) (e : Int) : scaled (s / .positive) (2 * m) (e - 2) = scaled s m e / 2 := by
  have hpow : (2 : ℚ) ^ (e - 2) = 2 ^ e / 4 := by
    rw [zpow_sub₀ two_ne_zero]
    norm_num
  cases s with
  | negative =>
    rw [show Sign.negative / Sign.positive = .negative from rfl, scaled_negative, scaled_negative, hpow]
    push_cast
    ring
  | positive =>
    rw [show Sign.positive / Sign.positive = .positive from rfl, scaled_positive, scaled_positive, hpow]
    push_cast
    ring

/-- The half of a whole number is stored without loss: a whole number has all of its bits in a long mantissa, so the half of it
ends where the numbers of its size do. -/
theorem Denotes.half {k : Int} (ha : Denotes a k) : Denotes (a / 2) (k / 2) := by
  have hpacked := isPacked_unpack_toModel a
  have htwo : ∃ h, (2 : Float32).toModel.unpack = .finite .positive (2 ^ 23) (-22) h := ⟨by decide, by rfl⟩
  obtain ⟨htwo, hunpack⟩ := htwo
  have hdiv : (a / 2).toModel = .pack (UnpackedFloat.div Format.binary32 a.toModel.unpack (2 : Float32).toModel.unpack) := rfl
  rw [hunpack] at hdiv
  rw [Denotes] at ha
  generalize a.toModel.unpack = u at *
  cases u with
  | infinity s => cases ha
  | notANumber => cases ha
  | zero s =>
    have hzero : UnpackedFloat.div Format.binary32 (.zero s) (.finite .positive (2 ^ 23) (-22) htwo) =
      .zero (s / .positive) := rfl
    rw [hzero] at hdiv
    rw [← Option.some.inj ha, zero_div, Denotes, hdiv]
    exact congrArg value? (unpack_pack (show IsPacked (.zero (s / .positive)) from trivial))
  | finite s m e hm =>
    obtain ⟨hlong, hexponent⟩ := IsStored.long hpacked (one_le_of_scaled_eq hm (Option.some.inj ha))
    have hlog : (2 * m).log2 = 24 := by
      have hlt := hpacked.lt
      exact (Nat.log2_eq_iff (by omega)).2 ⟨by omega, by omega⟩
    have hgrid : grid (2 * m) (e - 2) = e - 1 := by
      rw [grid, hlog]
      omega
    have hle := hpacked.le
    have hround := roundWithAccuracy_rounds (s / .positive) (m := 2 * m) (e := e - 2) (by omega) (by omega) (by omega)
    obtain ⟨hstored, q, hq, -, hexact⟩ := hround
    have hends : scaled (s / .positive) (2 * m) (e - 2) = ((s / .positive).apply m : Int) * 2 ^ grid (2 * m) (e - 2) := by
      have h := scaled_shiftLeft (s / .positive) m (e - 1) 1
      rw [Nat.shiftLeft_eq, pow_one, mul_comm, show e - 1 - ((1 : Nat) : Int) = e - 2 by omega] at h
      rw [h, hgrid, scaled]
    rw [UnpackedFloat.div, divCore_two hlong hpacked.lt hexponent] at hdiv
    rw [← Option.some.inj ha, Denotes, hdiv, ← scaled_half, ← hexact ⟨_, hends⟩, ← hq]
    exact congrArg value? (unpack_pack hstored)

/-! ### Comparison -/

/-- Of two stored numbers the one with the larger exponent is larger, and if they have the same the one with the larger
mantissa. -/
theorem compare_stored {m m' : Nat} {e e' : Int} (h : IsStored m e) (h' : IsStored m' e') :
    (compare e e').then (compare m m') = compare ((m : ℚ) * 2 ^ e) (m' * 2 ^ e') := by
  have hless : ∀ {m m' : Nat} {e e' : Int}, IsStored m e → IsStored m' e' → e < e' → (m : ℚ) * 2 ^ e < m' * 2 ^ e' := by
    intro m m' e e' h h' he
    have hfull : 2 ^ 23 ≤ m' := by have := h.ge; have := h'.full; omega
    calc (m : ℚ) * 2 ^ e < 2 ^ 24 * 2 ^ e := by
          refine mul_lt_mul_of_pos_right ?_ (zpow_pos two_pos _)
          exact_mod_cast h.lt
      _ = 2 ^ 23 * 2 ^ (e + 1) := by rw [zpow_add_one₀ two_ne_zero]; ring
      _ ≤ m' * 2 ^ e' := by
          refine mul_le_mul ?_ (zpow_le_zpow_right₀ one_le_two (by omega)) (by positivity) (by positivity)
          exact_mod_cast hfull
  rcases lt_trichotomy e e' with he | rfl | he
  · rw [compare_lt_iff_lt.2 he, compare_lt_iff_lt.2 (hless h h' he)]
    rfl
  · have hpos : (0 : ℚ) < 2 ^ e := by positivity
    rw [compare_eq_iff_eq.2 rfl]
    rcases lt_trichotomy m m' with hm | rfl | hm
    · rw [compare_lt_iff_lt.2 hm, compare_lt_iff_lt.2 (mul_lt_mul_of_pos_right (by exact_mod_cast hm) hpos)]
      rfl
    · rw [compare_eq_iff_eq.2 rfl, compare_eq_iff_eq.2 rfl]
      rfl
    · rw [compare_gt_iff_gt.2 hm, compare_gt_iff_gt.2 (mul_lt_mul_of_pos_right (by exact_mod_cast hm) hpos)]
      rfl
  · rw [compare_gt_iff_gt.2 he, compare_gt_iff_gt.2 (hless h' h he)]
    rfl

/-- Negative numbers compare the other way. -/
theorem swap_compare (x y : ℚ) : (compare x y).swap = compare (-x) (-y) := by
  rw [← Std.OrientedOrd.eq_swap]
  rcases lt_trichotomy x y with h | rfl | h
  · rw [compare_gt_iff_gt.2 h, compare_gt_iff_gt.2 (neg_lt_neg h)]
  · rw [compare_eq_iff_eq.2 rfl, compare_eq_iff_eq.2 rfl]
  · rw [compare_lt_iff_lt.2 h, compare_lt_iff_lt.2 (neg_lt_neg h)]

/-- Finite numbers compare as the values that they stand for. -/
theorem compare_eq {u v : UnpackedFloat} (hu : IsPacked u) (hv : IsPacked v) (hp : value? u = some p) (hq : value? v = some q) :
    u.compare v = some (compare p q) := by
  have hpos : ∀ {m : Nat} {e : Int}, 0 < m → (0 : ℚ) < m * 2 ^ e := by
    intro m e hm
    positivity
  cases u with
  | infinity s => cases hp
  | notANumber => cases hp
  | zero s =>
    obtain rfl : 0 = p := Option.some.inj hp
    cases v with
    | infinity s' => cases hq
    | notANumber => cases hq
    | zero s' =>
      obtain rfl : 0 = q := Option.some.inj hq
      rw [compare_eq_iff_eq.2 rfl]
      rfl
    | finite s' m' e' hm' =>
      obtain rfl : scaled s' m' e' = q := Option.some.inj hq
      cases s' with
      | negative =>
        rw [scaled_negative, compare_gt_iff_gt.2 (neg_lt_zero.2 (hpos hm'))]
        rfl
      | positive =>
        rw [scaled_positive, compare_lt_iff_lt.2 (hpos hm')]
        rfl
  | finite s m e hm =>
    obtain rfl : scaled s m e = p := Option.some.inj hp
    cases v with
    | infinity s' => cases hq
    | notANumber => cases hq
    | zero s' =>
      obtain rfl : 0 = q := Option.some.inj hq
      cases s with
      | negative =>
        rw [scaled_negative, compare_lt_iff_lt.2 (neg_lt_zero.2 (hpos hm))]
        rfl
      | positive =>
        rw [scaled_positive, compare_gt_iff_gt.2 (hpos hm)]
        rfl
    | finite s' m' e' hm' =>
      obtain rfl : scaled s' m' e' = q := Option.some.inj hq
      have hsame := compare_stored hu hv
      cases s <;> cases s' <;> simp only [scaled_negative, scaled_positive]
      · rw [← swap_compare, ← hsame]
        rfl
      · rw [compare_lt_iff_lt.2 ((neg_lt_zero.2 (hpos hm)).trans (hpos hm'))]
        rfl
      · rw [compare_gt_iff_gt.2 ((neg_lt_zero.2 (hpos hm')).trans (hpos hm))]
        rfl
      · rw [← hsame]
        rfl

/-- Numbers compare as they do unpacked. -/
theorem le_iff_unpack (a b : Float32) : a ≤ b ↔ UnpackedFloat.le a.toModel.unpack b.toModel.unpack = true :=
  decide_eq_true_iff

theorem Denotes.le_iff (ha : Denotes a p) (hb : Denotes b q) : a ≤ b ↔ p ≤ q := by
  have hcompare := compare_eq (isPacked_unpack_toModel a) (isPacked_unpack_toModel b) ha hb
  rw [le_iff_unpack, UnpackedFloat.le, hcompare]
  exact (Ordering.ne_gt_iff_isLE.symm.trans compare_le_iff_le)

theorem Denotes.lt_iff (ha : Denotes a p) (hb : Denotes b q) : a < b ↔ p < q := by
  have hcompare := compare_eq (isPacked_unpack_toModel a) (isPacked_unpack_toModel b) ha hb
  have hlt : a < b ↔ UnpackedFloat.lt a.toModel.unpack b.toModel.unpack = true := decide_eq_true_iff
  rw [hlt, UnpackedFloat.lt, hcompare, beq_iff_eq, Option.some_inj]
  exact compare_lt_iff_lt

/-- What lies between numbers that stand for something stands for something itself. -/
theorem exists_denotes_of_between {x : Float32} (ha : Denotes a p) (hb : Denotes b q) (hax : a ≤ x) (hxb : x ≤ b) :
    ∃ r, Denotes x r ∧ p ≤ r ∧ r ≤ q := by
  have hfinite : ∃ r, Denotes x r := by
    rw [le_iff_unpack] at hax hxb
    rw [Denotes] at ha hb
    cases hx : x.toModel.unpack with
    | zero s => exact ⟨_, congrArg value? hx⟩
    | finite s m e hm => exact ⟨_, congrArg value? hx⟩
    | notANumber =>
      rw [hx] at hxb
      cases hxb
    | infinity s =>
      rw [hx] at hax hxb
      cases s with
      | negative => cases hu : a.toModel.unpack <;> simp_all [UnpackedFloat.le, UnpackedFloat.compare, value?]
      | positive => cases hu : b.toModel.unpack <;> simp_all [UnpackedFloat.le, UnpackedFloat.compare, value?]
  obtain ⟨r, hr⟩ := hfinite
  exact ⟨r, hr, (ha.le_iff hr).1 hax, (hr.le_iff hb).1 hxb⟩

/-- A finite number is a number. -/
theorem Denotes.isNaN (ha : Denotes a p) : a.isNaN = false := by
  change a.toModel.unpack.isNaN = false
  rw [Denotes] at ha
  cases h : a.toModel.unpack with
  | notANumber => rw [h] at ha; cases ha
  | _ => rfl

end

/-- A small natural number is exact. -/
theorem denotes_ofNat {n : Nat} (h : n < 2 ^ 23) : Denotes (Float32.ofNat n) n := by
  have hscientific : n < 2 ^ 23 ∧ 0 ≤ 10 := ⟨h, by decide⟩
  have hmul : Float32.ofNat n = n.toUInt64.toFloat32 * Float32.ofBits 0x3F800000 := by
    change Float32.ofScientific n false 0 = _
    rw [Float32.ofScientific, dif_pos hscientific]
    rfl
  have hone : Denotes (Float32.ofBits 0x3F800000) (1 : Int) := by decide +kernel
  have hword : n.toUInt64.toNat = n := by
    rw [UInt64.toNat_ofNat']
    omega
  have hcast : Denotes n.toUInt64.toFloat32 (n.toUInt64.toNat : Int) := by
    have hround := normalize_isRounded n.toUInt64.toNat 0 .positive
    rw [zpow_zero, mul_one] at hround
    exact hround.denotes rfl (abs_lt.2 ⟨by omega, by omega⟩)
  rw [hword] at hcast
  rw [hmul]
  have hround := hcast.mul_isRounded hone
  rw [Int.cast_one, mul_one] at hround
  exact_mod_cast hround.denotes rfl (abs_lt.2 ⟨by omega, by omega⟩)

/-! ## Numbers nearby -/

/-- The number `x` stands for one that is at most `d` away from `v`. -/
def IsNear (x : Float32) (v d : ℚ) : Prop := ∃ q, Denotes x q ∧ |q - v| ≤ d

/-- A number is near what it stands for. -/
theorem Denotes.isNear {x : Float32} {q : ℚ} (h : Denotes x q) : IsNear x q 0 := ⟨q, h, by rw [sub_self, abs_zero]⟩

namespace IsNear

variable {a b : Float32} {v w d e : ℚ}

/-- What is rounded is less than two away from what it should be, where numbers are less than `2 ^ 25`. -/
theorem of_isRounded {x : Float32} {u : UnpackedFloat} {q : ℚ} (h : IsRounded u q) (hx : x.toModel = .pack u)
    (hq : |q - v| ≤ d) (hsize : |v| + d < 2 ^ 25) : IsNear x v (d + 2) := by
  have hsmall : |q| < 2 ^ (25 : Int) := by
    have := abs_sub_abs_le_abs_sub q v
    rw [show ((2 : ℚ) ^ (25 : Int)) = 2 ^ 25 by norm_num]
    linarith
  obtain ⟨r, hr, hnear, -⟩ := h.exists_denotes hx (by decide) (by decide) hsmall
  refine ⟨r, hr, ?_⟩
  have htriangle := abs_sub_le r q v
  norm_num at hnear
  linarith

/-- Errors add up in a sum, and rounding adds at most two. -/
theorem add (ha : IsNear a v d) (hb : IsNear b w e) (h : |v + w| + (d + e) < 2 ^ 25) : IsNear (a + b) (v + w) (d + e + 2) := by
  obtain ⟨p, hp, hpv⟩ := ha
  obtain ⟨q, hq, hqw⟩ := hb
  refine of_isRounded (hp.add_isRounded hq) rfl ?_ h
  calc |p + q - (v + w)| = |(p - v) + (q - w)| := by ring_nf
    _ ≤ |p - v| + |q - w| := abs_add_le _ _
    _ ≤ d + e := add_le_add hpv hqw

/-- Errors add up in a difference, and rounding adds at most two. -/
theorem sub (ha : IsNear a v d) (hb : IsNear b w e) (h : |v - w| + (d + e) < 2 ^ 25) : IsNear (a - b) (v - w) (d + e + 2) := by
  obtain ⟨p, hp, hpv⟩ := ha
  obtain ⟨q, hq, hqw⟩ := hb
  refine of_isRounded (hp.sub_isRounded hq) rfl ?_ h
  calc |p - q - (v - w)| = |(p - v) - (q - w)| := by ring_nf
    _ ≤ |p - v| + |q - w| := abs_sub _ _
    _ ≤ d + e := add_le_add hpv hqw

/-- Numbers near values that are far apart compare as these do. -/
theorem le (ha : IsNear a v d) (hb : IsNear b w e) (h : v + d + e ≤ w) : a ≤ b := by
  obtain ⟨p, hp, hpv⟩ := ha
  obtain ⟨q, hq, hqw⟩ := hb
  rw [abs_le] at hpv hqw
  rw [hp.le_iff hq]
  linarith

/-- Numbers near values that are far apart the other way do not compare. -/
theorem not_le (ha : IsNear a v d) (hb : IsNear b w e) (h : w + d + e < v) : ¬ a ≤ b := by
  obtain ⟨p, hp, hpv⟩ := ha
  obtain ⟨q, hq, hqw⟩ := hb
  rw [abs_le] at hpv hqw
  rw [hp.le_iff hq]
  linarith

end IsNear

end Whiteboard.Single
