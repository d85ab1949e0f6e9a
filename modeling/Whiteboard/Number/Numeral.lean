import Whiteboard.Number.Rounding

/-!
# Numerals

A numeral is a number as it is spelled: a sign, digits, a fraction and an exponent. It is read as an integer, or as a
floating point number by rounding what it spells.
-/

namespace Whiteboard

open Text

/-- A number as it is spelled. -/
structure Numeral where
  negative : Bool := false
  /-- The digits before the point. -/
  whole : List Char
  /-- The digits behind the point; without any there is no point. -/
  fraction : List Char := []
  exponent? : Option Int := none
  deriving DecidableEq, Repr

namespace Numeral

/-- The numeral of an integer. -/
def ofInt (n : Int) : Numeral := { negative := decide (n < 0), whole := digitsOfNat n.natAbs }

/-- The spelling; the sign of an exponent is always written. -/
def text (n : Numeral) : String :=
  (if n.negative then "-" else "") ++ String.ofList n.whole ++
  (if n.fraction.isEmpty then "" else "." ++ String.ofList n.fraction) ++
  n.exponent?.elim "" fun e => (if e < 0 then "e-" else "e+") ++ toString e.natAbs

/-- There is neither a fraction nor an exponent, and the number is not a negative zero. -/
def isInteger (n : Numeral) : Bool :=
  n.fraction.isEmpty && n.exponent?.isNone && !(n.negative && natOfDigits n.whole == 0)

/-- The integer that is spelled. -/
def toInt? (n : Numeral) : Option Int :=
  if n.isInteger then some (if n.negative then -(natOfDigits n.whole : Int) else natOfDigits n.whole) else none

/-- The integer that is spelled, if it lies within the closed bounds. -/
def toIntWithin? (lo hi : Int) (n : Numeral) : Option Int := n.toInt?.filter fun i => lo ≤ i && i ≤ hi

/-- All digits as one number, which the power of ten next to it scales. -/
def decimal (n : Numeral) : Nat × Int :=
  (natOfDigits (n.whole ++ n.fraction), n.exponent?.getD 0 - n.fraction.length)

/-- An integer of 64 bits, signed or unsigned. -/
def isWord (n : Numeral) : Bool := (n.toIntWithin? (-9223372036854775808) (maxWord 64)).isSome

/-- The double precision number nearest to what is spelled; none beyond the greatest. -/
def toDouble? (n : Numeral) : Option Scaled := BinaryFormat.double.roundDecimal? n.decimal.1 n.decimal.2

/-- The bits of a number of a format with the given numbers of mantissa and exponent bits. -/
def bitsOf (mantissaBits exponentBits bias : Nat) (negative : Bool) (x : Scaled) : Nat :=
  (if negative then pow2 (mantissaBits + exponentBits) else 0) +
  (if x.mantissa < pow2 mantissaBits then x.mantissa
    else (x.exponent + bias).toNat * pow2 mantissaBits + (x.mantissa - pow2 mantissaBits))

/-- The single precision number with the given sign and magnitude; without a magnitude it is infinite. -/
def single (negative : Bool) (magnitude? : Option Scaled) : Float32 :=
  let infinity : Scaled := ⟨pow2 23, 105⟩
  Float32.ofBits (UInt32.ofNat (bitsOf 23 8 150 negative (magnitude?.getD infinity)))

/-- The double precision number with the given sign and magnitude. -/
def double (negative : Bool) (magnitude : Scaled) : Float :=
  Float.ofBits (UInt64.ofNat (bitsOf 52 11 1075 negative magnitude))

/-- The single precision number for a numeral: an integer of 64 bits is rounded at once, anything else is read in double
precision first. None if the double is out of range. -/
def toSingle? (n : Numeral) : Option Float32 :=
  if n.isWord then some (single n.negative (BinaryFormat.single.round? (natOfDigits n.whole) 1))
  else n.toDouble?.map fun d => single n.negative (BinaryFormat.single.roundScaled? d)

/-- The double precision number for a numeral. -/
def toFloat? (n : Numeral) : Option Float := n.toDouble?.map (double n.negative)

end Numeral

end Whiteboard
