import JsEmitter.Double

/-!
# Shortest decimals

The shortest decimal of a finite double is the decimal with the fewest digits among those that
the double is the nearest double of; among those with the fewest digits it is the nearest. A
positive double is `mantissa * 2 ^ exponent`. Its neighbours leave it an interval of reals,
whose ends belong to it when the mantissa is even. The coarsest grid `digits * 10 ^ power` with
a point in the interval gives the fewest digits, and only the two grid points around the double
need to be tried.
-/
namespace JsEmitter.Double

/-- A positive decimal: digits times a power of ten. -/
structure Decimal where
  digits : Nat
  power : Int
deriving DecidableEq, Repr

/-- The whole number that is multiplied with a power of two. -/
def mantissa (double : Double) : Nat :=
  if double.biasedExponent = 0 then double.fraction else double.fraction + (1 <<< 52)

/-- The power of two that the mantissa is multiplied with. -/
def exponent (double : Double) : Int :=
  if double.biasedExponent = 0 then -1074 else double.biasedExponent - 1075

/-- Four times the mantissa, less the distance to the lower end of the interval. -/
def lowerEnd (double : Double) : Nat :=
  4 * double.mantissa - (if double.fraction = 0 ∧ 1 < double.biasedExponent then 1 else 2)

/-- Four times the mantissa, plus the distance to the upper end of the interval. -/
def upperEnd (double : Double) : Nat := 4 * double.mantissa + 2

/-- The factor that brings quarters of the mantissa onto a common scale with a grid. -/
def binaryScale (double : Double) (power : Int) : Nat :=
  Nat.pow 2 (double.exponent - 2).toNat * Nat.pow 10 (-power).toNat

/-- The factor that brings the points of a grid onto a common scale with quarters of the
mantissa. -/
def decimalScale (double : Double) (power : Int) : Nat :=
  Nat.pow 10 power.toNat * Nat.pow 2 (2 - double.exponent).toNat

/-- Whether a grid point has this double as its nearest double. -/
def admits (double : Double) (power : Int) (digits : Nat) : Bool :=
  let point := digits * double.decimalScale power
  let lower := double.lowerEnd * double.binaryScale power
  let upper := double.upperEnd * double.binaryScale power
  if double.mantissa % 2 = 0 then lower ≤ point && point ≤ upper else lower < point && point < upper

/-- The better of the two grid points around the double, if one of them will do. -/
def onGrid? (double : Double) (power : Int) : Option Decimal :=
  let middle := 4 * double.mantissa * double.binaryScale power
  let below := middle / double.decimalScale power
  let above := below + 1
  let fromBelow := middle - below * double.decimalScale power
  let fromAbove := above * double.decimalScale power - middle
  match double.admits power below && 0 < below, double.admits power above with
  | true, true =>
    if fromBelow < fromAbove || (fromBelow = fromAbove && below % 2 = 0) then some ⟨below, power⟩
    else some ⟨above, power⟩
  | true, false => some ⟨below, power⟩
  | false, true => some ⟨above, power⟩
  | false, false => none

/-- The first grid with an admitted point, among so many grids from one downwards. -/
def firstGrid (double : Double) : Nat → Int → Decimal
  | 0, power => ⟨0, power⟩
  | count + 1, power => (double.onGrid? power).getD (double.firstGrid count (power - 1))

/-- The shortest decimal of the magnitude of a finite double other than zero. -/
def shortest (double : Double) : Decimal := double.firstGrid 640 309

end JsEmitter.Double
