import Whiteboard.Number.Numeral
import Whiteboard.Text.Blank

/-!
# The shortest numeral of a single precision number

A number is written with the fewest digits that read back as the same number; of several such decimals the nearest one
is taken, and of two equally near ones the one with the even last digit.
-/

namespace Whiteboard

open Text

namespace Shortest

/-- The sign and the magnitude of a number; none if it is infinite or not a number. -/
def parts? (x : Float32) : Option (Bool × Scaled) :=
  let bits : Nat := x.toBits.toNat
  let field : Nat := bits / pow2 23 % pow2 8
  let low : Nat := bits % pow2 23
  if field = 255 then none
  else some (decide (pow2 31 ≤ bits), if field = 0 then ⟨low, -149⟩ else ⟨pow2 23 + low, (field : Int) - 150⟩)

/-- A scaled number as numerator and denominator. -/
def ratio (x : Scaled) : Nat × Nat :=
  if 0 ≤ x.exponent then (x.mantissa * pow2 x.exponent.toNat, 1) else (x.mantissa, pow2 (-x.exponent).toNat)

/-- The number of digits of a number; zero has one. -/
def digitCount (n : Nat) : Nat := (digitsOfNat n).length

/-- The exponent `E` for which a positive ratio lies between `10 ^ (E - 1)` and `10 ^ E`, the latter excluded. -/
def decimalExponent (num den : Nat) : Int :=
  if den ≤ num then digitCount (num / den) else 1 - (digitCount ((den + num - 1) / num - 1) : Int)

/-- The ratio `num / den / 10 ^ k` as numerator and denominator. -/
def scaleDown10 (num den : Nat) (k : Int) : Nat × Nat :=
  if 0 ≤ k then (num, den * pow10 k.toNat) else (num * pow10 (-k).toNat, den)

/-- Whether `digits * 10 ^ k`, read in double precision and then rounded, is the magnitude `x`. -/
def readsBack (x : Scaled) (digits : Nat) (k : Int) : Bool :=
  (BinaryFormat.double.roundDecimal? digits k).bind BinaryFormat.single.roundScaled? == some x

/-- The decimal with steps of `10 ^ k` that reads back as `x`, whose ratio is given: the one below or the one above. -/
def onGrid? (x : Scaled) (num den : Nat) (k : Int) : Option Nat :=
  let (n, d) := scaleDown10 num den k
  let below := n / d
  let nearer := BinaryFormat.roundDiv n d
  let farther := if nearer = below then below + 1 else below
  if readsBack x nearer k then some nearer else if readsBack x farther k then some farther else none

/-- The first grid with a hit, from `length` digits on, for as many grids as `tries` allows. -/
def search (x : Scaled) (num den : Nat) (top : Int) : Nat → Nat → Nat × Int
  | _, 0 => (0, 0)
  | length, tries + 1 =>
    match onGrid? x num den (top - length) with
    | some digits => (digits, top - length)
    | none => search x num den top (length + 1) tries

/-- The shortest decimal that reads back as a positive magnitude. The decimal expansion of every single precision number
ends after at most 112 digits, so a hit is always found. -/
def decimal (x : Scaled) : Nat × Int :=
  let (num, den) := ratio x
  search x num den (decimalExponent num den) 1 120

/-- The spelling of a positive decimal: positional below ten trillion and from one millionth on, otherwise with one
digit before the point and an exponent. A whole number in positional spelling ends in `.0`. -/
def layout (negative : Bool) (digits : Nat) (k : Int) : Numeral :=
  let all := digitsOfNat digits
  let kept := dropEndWhile (· == '0') all
  let point : Int := (all.length : Int) + k
  let size : Int := kept.length
  if 0 < point ∧ point ≤ 13 then
    if size ≤ point then
      { negative, whole := kept ++ List.replicate (point - size).toNat '0', fraction := ['0'] }
    else { negative, whole := kept.take point.toNat, fraction := kept.drop point.toNat }
  else if -6 < point ∧ point ≤ 0 then
    { negative, whole := ['0'], fraction := List.replicate (-point).toNat '0' ++ kept }
  else { negative, whole := kept.take 1, fraction := kept.drop 1, exponent? := some (point - 1) }

/-- The numeral of a number; none if it is infinite or not a number. -/
def numeral? (x : Float32) : Option Numeral :=
  (parts? x).map fun (negative, magnitude) =>
    if magnitude.mantissa = 0 then { negative, whole := ['0'], fraction := ['0'] }
    else
      let (digits, k) := decimal magnitude
      layout negative digits k

end Shortest

end Whiteboard
