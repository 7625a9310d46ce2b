import JsEmitter.Json

/-!
# JSON numbers

A number is a sign, whole digits, and perhaps a fraction and an exponent. A number without
fraction and exponent that fits sixty-four bits is a whole number, except that a negative zero
is a double. Every other number is the nearest double, unless it is out of range.
-/
namespace JsEmitter.Json

/-- The parts of a number as it is written. -/
structure NumberText where
  negative : Bool
  whole : List Char
  fraction? : Option (List Char)
  exponent? : Option (Bool × List Char)

/-- The value of a decimal digit. -/
def digitValue (digit : Char) : Nat := digit.toNat - '0'.toNat

/-- The number that a list of decimal digits spells. -/
def digitsValue (digits : List Char) : Nat :=
  digits.foldl (fun value digit => value * 10 + digitValue digit) 0

/-- The greatest number of sixty-four bits. -/
def maxWord : Nat := UInt64.size - 1

/-- The exponent as it is written. -/
def NumberText.exponent (number : NumberText) : Int :=
  match number.exponent? with
  | some (true, digits) => -(digitsValue digits : Int)
  | some (false, digits) => digitsValue digits
  | none => 0

/-- The number as a double; `none` if it is out of range. -/
def NumberText.double? (number : NumberText) : Option Double :=
  let fraction := number.fraction?.getD []
  Double.ofDecimal? number.negative (digitsValue (number.whole ++ fraction))
    (number.exponent - fraction.length)

/-- The number as a JSON value; `none` if it is out of range. -/
def NumberText.json? (number : NumberText) : Option Json :=
  let value := digitsValue number.whole
  if number.fraction?.isSome || number.exponent?.isSome then number.double?.map .double
  else if number.negative then
    if 0 < value && Int64.minValue.toInt ≤ -(value : Int) then some (.int (-(value : Int)))
    else number.double?.map .double
  else if value ≤ maxWord then some (.int value)
  else number.double?.map .double

/-- The exponent at the front of what follows the digits, which must be all of it. -/
def readExponent? : List Char → Option (Option (Bool × List Char))
  | [] => some none
  | mark :: rest =>
    if mark = 'e' || mark = 'E' then
      let (negative, digits) := match rest with
        | '-' :: digits => (true, digits)
        | '+' :: digits => (false, digits)
        | digits => (false, digits)
      if digits.isEmpty || !digits.all Char.isDigit then none else some (some (negative, digits))
    else none

/-- The parts of a number; `none` if the characters are no number. -/
def NumberText.ofChars? (chars : List Char) : Option NumberText :=
  let (negative, unsigned) := match chars with
    | '-' :: rest => (true, rest)
    | rest => (false, rest)
  let whole := unsigned.takeWhile Char.isDigit
  let rest := unsigned.dropWhile Char.isDigit
  if whole.isEmpty || (whole.head? = some '0' && 1 < whole.length) then none
  else
    match rest with
    | '.' :: decimals =>
      let fraction := decimals.takeWhile Char.isDigit
      if fraction.isEmpty then none
      else (readExponent? (decimals.dropWhile Char.isDigit)).map
        (fun exponent? => ⟨negative, whole, some fraction, exponent?⟩)
    | _ => (readExponent? rest).map (fun exponent? => ⟨negative, whole, none, exponent?⟩)

end JsEmitter.Json
