import JsEmitter.Text.Unprinted

/-!
# Quoted text

A text inside a message stands between double quotes. The quote, the backslash, the tab, the
two line breaks and the zero character have short escapes; every other character without a
printed form is written by its code point in hexadecimal digits between braces.
-/
namespace JsEmitter.Text

/-- Hexadecimal digits of a number, lower case, without leading zeros. -/
def hexadecimal (number : Nat) : List Char := Nat.toDigits 16 number

/-- Hexadecimal digits, filled up with zeros on the left to a least width. -/
def paddedHexadecimal (width number : Nat) : List Char :=
  let digits := hexadecimal number
  List.replicate (width - digits.length) '0' ++ digits

/-- How one character is written inside quotes. -/
def quotedChar (char : Char) : List Char :=
  if char = '"' then ['\\', '"']
  else if char = '\\' then ['\\', '\\']
  else if char = '\n' then ['\\', 'n']
  else if char = '\r' then ['\\', 'r']
  else if char = '\t' then ['\\', 't']
  else if char = '\x00' then ['\\', '0']
  else if isUnprinted char then ['\\', 'u', '\x7b'] ++ hexadecimal char.toNat ++ ['\x7d']
  else [char]

/-- The text between quotes, with its characters escaped where needed. -/
def quoted (text : String) : String :=
  String.ofList (['"'] ++ text.toList.flatMap quotedChar ++ ['"'])

/-- The quoted texts of a list between square brackets, separated by commas. -/
def quotedList (texts : List String) : String :=
  "[" ++ ", ".intercalate (texts.map quoted) ++ "]"

end JsEmitter.Text
