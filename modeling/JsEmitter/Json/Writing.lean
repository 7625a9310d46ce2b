import JsEmitter.Double.Shortest
import JsEmitter.Json

/-!
# Text of JSON values

A value is written on one line or on indented lines. In strings only the quote, the backslash
and the control characters are escaped. A double is written with the fewest digits that read
back: positional between ten to the minus five and ten to the sixteenth, always with a point, and
with a signed exponent outside.
-/
namespace JsEmitter.Json

/-- How one character is written inside a string. -/
def stringChar (char : Char) : List Char :=
  if char = '"' then ['\\', '"']
  else if char = '\\' then ['\\', '\\']
  else if char = '\x08' then ['\\', 'b']
  else if char = '\x0c' then ['\\', 'f']
  else if char = '\n' then ['\\', 'n']
  else if char = '\r' then ['\\', 'r']
  else if char = '\t' then ['\\', 't']
  else if char.toNat < 0x20 then
    let digits := Nat.toDigits 16 char.toNat
    ['\\', 'u'] ++ List.replicate (4 - digits.length) '0' ++ digits
  else [char]

/-- A string between quotes. -/
def writeString (text : String) : String :=
  "\"" ++ text.foldl (fun written char => written ++ String.ofList (stringChar char)) "" ++ "\""

/-- Digits with a point after so many of them, or with an exponent. -/
def writeDecimal (decimal : Double.Decimal) : String :=
  let digits := Nat.toDigits 10 decimal.digits
  let point := decimal.power + digits.length
  let chars : List Char :=
    if 0 ≤ decimal.power ∧ point ≤ 16 then
      digits ++ List.replicate decimal.power.toNat '0' ++ ['.', '0']
    else if 0 < point ∧ point ≤ 16 then
      digits.take point.toNat ++ ['.'] ++ digits.drop point.toNat
    else if -5 < point ∧ point ≤ 0 then
      ['0', '.'] ++ List.replicate (-point).toNat '0' ++ digits
    else
      let exponent := (if 0 < point then ['+'] else []) ++ (toString (point - 1)).toList
      match digits with
      | [digit] => digit :: 'e' :: exponent
      | first :: others => first :: '.' :: others ++ 'e' :: exponent
      | [] => []
  String.ofList chars

/-- A double; those that are not finite have no number and are written as `null`. -/
def writeDouble (double : Double) : String :=
  if !double.isFinite then "null"
  else
    let sign := if double.isNegative then "-" else ""
    if double.mantissa = 0 then sign ++ "0.0" else sign ++ writeDecimal double.shortest

mutual

/-- A value on one line. -/
def write : Json → String
  | unreadable | null => "null"
  | bool value => if value then "true" else "false"
  | int value => toString value
  | double value => writeDouble value
  | str value => writeString value
  | arr elements => "[" ++ writeElements elements ++ "]"
  | obj members => "\x7b" ++ writeMembers members ++ "\x7d"

/-- Elements on one line. -/
def writeElements : List Json → String
  | [] => ""
  | [element] => write element
  | element :: rest => write element ++ "," ++ writeElements rest

/-- Members on one line. -/
def writeMembers : List (String × Json) → String
  | [] => ""
  | [(key, value)] => writeString key ++ ":" ++ write value
  | (key, value) :: rest => writeString key ++ ":" ++ write value ++ "," ++ writeMembers rest

end

/-- The start of a line at a depth of nesting. -/
def lineStart (depth : Nat) : String := "\n" ++ String.join (List.replicate depth "  ")

mutual

/-- A value on indented lines, at a depth of nesting. -/
def writeLines (depth : Nat) : Json → String
  | unreadable | null => "null"
  | bool value => if value then "true" else "false"
  | int value => toString value
  | double value => writeDouble value
  | str value => writeString value
  | arr [] => "[]"
  | arr elements => "[" ++ writeElementLines (depth + 1) elements ++ lineStart depth ++ "]"
  | obj [] => "\x7b\x7d"
  | obj members => "\x7b" ++ writeMemberLines (depth + 1) members ++ lineStart depth ++ "\x7d"

/-- Elements on lines of their own. -/
def writeElementLines (depth : Nat) : List Json → String
  | [] => ""
  | [element] => lineStart depth ++ writeLines depth element
  | element :: rest =>
    lineStart depth ++ writeLines depth element ++ "," ++ writeElementLines depth rest

/-- Members on lines of their own. -/
def writeMemberLines (depth : Nat) : List (String × Json) → String
  | [] => ""
  | [(key, value)] => lineStart depth ++ writeString key ++ ": " ++ writeLines depth value
  | (key, value) :: rest =>
    lineStart depth ++ writeString key ++ ": " ++ writeLines depth value ++ "," ++
      writeMemberLines depth rest

end

end JsEmitter.Json
