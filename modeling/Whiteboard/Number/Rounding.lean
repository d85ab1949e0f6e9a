import Whiteboard.Number.Power
import Whiteboard.Text.Numeral

/-!
# Rounding to binary formats

A format holds the numbers `m * 2 ^ e` whose mantissa and exponent lie within its bounds. A ratio is rounded to the
nearest of them, and to the one with the even mantissa if two are equally near.
-/

namespace Whiteboard

/-- A binary floating point format. -/
structure BinaryFormat where
  /-- The number of bits of a mantissa. -/
  precision : Nat
  minExponent : Int
  maxExponent : Int
  deriving DecidableEq, Repr

/-- A number that is not negative, as a mantissa times a power of two. -/
structure Scaled where
  mantissa : Nat
  exponent : Int
  deriving DecidableEq, Repr

namespace BinaryFormat

/-- Single precision. -/
def single : BinaryFormat := ⟨24, -149, 104⟩

/-- Double precision. -/
def double : BinaryFormat := ⟨53, -1074, 971⟩

/-- A quotient rounded to the nearest integer, and to the even one of two that are equally near. -/
def roundDiv (num den : Nat) : Nat :=
  let q := num / den
  let r := num % den
  if den < 2 * r || (2 * r == den && q % 2 == 1) then q + 1 else q

/-- The ratio `num / den / 2 ^ e` as numerator and denominator. -/
def scaleDown (num den : Nat) (e : Int) : Nat × Nat :=
  if 0 ≤ e then (num, den * pow2 e.toNat) else (num * pow2 (-e).toNat, den)

/-- The exponent with which a positive ratio fills the mantissa, or the least exponent if that is greater. -/
def exponentFor (f : BinaryFormat) (num den : Nat) : Int :=
  let guess : Int := (num.log2 : Int) - den.log2 - f.precision + 1
  let (n, d) := scaleDown num den guess
  max (if n / d < pow2 (f.precision - 1) then guess - 1 else guess) f.minExponent

/-- The number of the format nearest to `num / den`; none if it is beyond the greatest. -/
def round? (f : BinaryFormat) (num den : Nat) : Option Scaled :=
  if num = 0 then some ⟨0, f.minExponent⟩
  else
    let e := f.exponentFor num den
    let (n, d) := scaleDown num den e
    let m := roundDiv n d
    let result : Scaled := if m = pow2 f.precision then ⟨pow2 (f.precision - 1), e + 1⟩ else ⟨m, e⟩
    if f.maxExponent < result.exponent then none else some result

/-- The number of the format nearest to a scaled number. -/
def roundScaled? (f : BinaryFormat) (x : Scaled) : Option Scaled :=
  if 0 ≤ x.exponent then f.round? (x.mantissa * pow2 x.exponent.toNat) 1
  else f.round? x.mantissa (pow2 (-x.exponent).toNat)

/-- The number of the format nearest to `digits * 10 ^ exponent`. A decimal with its first digit beyond all numbers of
the format is not worked out. -/
def roundDecimal? (f : BinaryFormat) (digits : Nat) (exponent : Int) : Option Scaled :=
  let magnitude : Int := (Text.digitsOfNat digits).length + exponent
  if digits = 0 || magnitude < -400 then some ⟨0, f.minExponent⟩
  else if 400 < magnitude then none
  else if 0 ≤ exponent then f.round? (digits * pow10 exponent.toNat) 1
  else f.round? digits (pow10 (-exponent).toNat)

end BinaryFormat

end Whiteboard
