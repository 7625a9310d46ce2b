/-!
# Double-precision numbers

A double is kept as its sixty-four bits, so that equality is equality of bits and the sign of
zero is never lost. A quotient of whole numbers becomes the nearest double, and of two doubles
that are equally near the one with an even last bit; what is too large becomes infinite. Whole
numbers and decimals are quotients, so they are read in this way too.
-/
namespace JsEmitter

/-- A double-precision number, by its bits. -/
structure Double where
  /-- Sign, exponent and fraction, from the highest bit down. -/
  bits : UInt64
deriving DecidableEq, Repr, Inhabited

namespace Double

/-- Positive zero. -/
def zero : Double := ⟨0⟩

/-- Whether the sign bit is set. -/
def isNegative (double : Double) : Bool := double.bits.toNat >>> 63 = 1

/-- The eleven bits of the exponent. -/
def biasedExponent (double : Double) : Nat := (double.bits.toNat >>> 52) % 2048

/-- The fifty-two bits of the fraction. -/
def fraction (double : Double) : Nat := double.bits.toNat % (1 <<< 52)

/-- Whether the double is neither infinite nor undefined. -/
def isFinite (double : Double) : Bool := double.biasedExponent ≠ 2047

/-- The double with a sign and the bits of a magnitude. -/
def ofSignAndMagnitude (negative : Bool) (magnitude : Nat) : Double :=
  ⟨UInt64.ofNat (magnitude + if negative then 1 <<< 63 else 0)⟩

/-- The whole number nearest to a quotient; halfway between two it is the even one. -/
def roundQuotient (numerator denominator : Nat) : Nat :=
  let below := numerator / denominator
  let rest := numerator % denominator
  if 2 * rest < denominator ∨ (2 * rest = denominator ∧ below % 2 = 0) then below else below + 1

/-- A quotient lies at most half a unit from the whole number that it is rounded to. -/
theorem roundQuotient_near {numerator denominator : Nat} (positive : 0 < denominator) :
    2 * numerator ≤ 2 * (denominator * roundQuotient numerator denominator) + denominator ∧
      2 * (denominator * roundQuotient numerator denominator) ≤ 2 * numerator + denominator := by
  have parts := Nat.div_add_mod numerator denominator
  have small := Nat.mod_lt numerator positive
  simp only [roundQuotient]
  split
  · omega
  · rw [Nat.mul_succ]
    omega

/-- The exponent of the greatest power of two that a positive quotient reaches. -/
def quotientLog2 (numerator denominator : Nat) : Int :=
  let highest : Int := (numerator.log2 : Int) - denominator.log2
  if denominator <<< highest.toNat ≤ numerator <<< (-highest).toNat then highest else highest - 1

/-- The exponent of the power of two that the last bit of a quotient stands for: there are
fifty-three bits, but none of them is smaller than the smallest double. -/
def lastBit (numerator denominator : Nat) : Int :=
  max (-1074) (quotientLog2 numerator denominator - 52)

/-- The bits of an infinite magnitude, which follow those of the greatest finite one. -/
def infiniteMagnitude : Nat := 2047 <<< 52

/-- The bits of the double nearest to a quotient. The bits of doubles in increasing order are
consecutive numbers, so a mantissa that is rounded up to the next power of two carries over
into the exponent. -/
def nearestMagnitude (numerator denominator : Nat) : Nat :=
  if numerator = 0 then 0
  else
    let unit := lastBit numerator denominator
    let mantissa := roundQuotient (numerator <<< (-unit).toNat) (denominator <<< unit.toNat)
    min infiniteMagnitude (((unit + 1074).toNat <<< 52) + mantissa)

/-- The double nearest to a quotient with a sign. -/
def nearest (negative : Bool) (numerator denominator : Nat) : Double :=
  ofSignAndMagnitude negative (nearestMagnitude numerator denominator)

/-- The double nearest to a whole number. -/
def ofInt (number : Int) : Double := nearest (number < 0) number.natAbs 1

/-- The double, unless it is infinite. -/
def finite? (double : Double) : Option Double := if double.isFinite then some double else none

/-- The double nearest to a significand times a power of ten; `none` if it is out of range.
Numbers from ten to the 309th on are out of range, and numbers below ten to the minus 324th are
nearest to zero, so no power of ten beyond these needs to be computed. -/
def ofDecimal? (negative : Bool) (significand : Nat) (power : Int) : Option Double :=
  let magnitude := (Nat.toDigits 10 significand).length + power
  if significand = 0 ∨ magnitude < -323 then some (ofSignAndMagnitude negative 0)
  else if 309 < magnitude then none
  else
    (nearest negative (significand * Nat.pow 10 power.toNat) (Nat.pow 10 (-power).toNat)).finite?

/-- The sixteen lower-case hexadecimal digits of the bits. -/
def hexadecimalBits (double : Double) : String :=
  let digits := Nat.toDigits 16 double.bits.toNat
  String.ofList (List.replicate (16 - digits.length) '0' ++ digits)

end Double

end JsEmitter
