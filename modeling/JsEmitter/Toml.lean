import JsEmitter.Json.Token

/-!
# Flat TOML documents

A document is read line by line. A line is blank, a comment, or a key with its value: a string in
double or single quotes, a truth value or a whole number. A key may stand in quotes too, and no
key may come twice. The table is given as a JSON object.
-/
namespace JsEmitter.Toml

/-- Whether a character separates the parts of a line. -/
def isSpace (char : Char) : Bool := char = ' ' || char = '\t'

/-- Whether a character may stand in a comment or between quotes: any but the control characters
other than the tab. -/
def isText (char : Char) : Bool := char = '\t' || (0x20 ≤ char.toNat && char.toNat ≠ 0x7f)

/-- Whether a character may stand in a key without quotes. -/
def isKeyChar (char : Char) : Bool := char.isAlphanum || char = '_' || char = '-'

/-- Whether a character may stand in a value without quotes. -/
def isValueChar (char : Char) : Bool := isKeyChar char || char = '+' || char = '.'

/-- A line without the spaces at its start. -/
def skipSpaces (chars : List Char) : List Char := chars.dropWhile isSpace

/-- The character that a letter stands for after a backslash. -/
def escapedChar? (letter : Char) : Option Char :=
  match letter with
  | '"' => some '"'
  | '\\' => some '\\'
  | 'b' => some '\x08'
  | 'f' => some '\x0c'
  | 'n' => some '\n'
  | 'r' => some '\r'
  | 't' => some '\t'
  | _ => none

/-- The character with a code point in hexadecimal digits. -/
def codePoint? (digits : List Char) : Option Char := do
  let values ← digits.mapM Json.hexadecimalValue?
  let number := values.foldl (fun number value => number * 16 + value) 0
  if number.isValidChar then some (Char.ofNat number) else none

/-- The rest of a string in double quotes, after the characters that have been read, and what
follows it. -/
def basicString? (reversed : List Char) : List Char → Option (String × List Char)
  | '"' :: rest => some (String.ofList reversed.reverse, rest)
  | '\\' :: 'u' :: a :: b :: c :: d :: rest => do
    basicString? ((← codePoint? [a, b, c, d]) :: reversed) rest
  | '\\' :: 'U' :: a :: b :: c :: d :: e :: f :: g :: h :: rest => do
    basicString? ((← codePoint? [a, b, c, d, e, f, g, h]) :: reversed) rest
  | '\\' :: letter :: rest => do
    basicString? ((← escapedChar? letter) :: reversed) rest
  | char :: rest =>
    if isText char && char ≠ '\\' then basicString? (char :: reversed) rest else none
  | [] => none

/-- The rest of a string in single quotes, in which every character stands for itself, and what
follows it. -/
def literalString? (chars : List Char) : Option (String × List Char) :=
  let text := chars.takeWhile (fun char => isText char && char ≠ '\x27')
  match chars.drop text.length with
  | '\x27' :: rest => some (String.ofList text, rest)
  | _ => none

/-- The digits of a number, without the underscores between them. -/
def digits? (isDigit : Char → Bool) : List Char → Option (List Char)
  | [] => none
  | [last] => if isDigit last then some [last] else none
  | first :: '_' :: rest => if isDigit first then (digits? isDigit rest).map (first :: ·) else none
  | first :: rest => if isDigit first then (digits? isDigit rest).map (first :: ·) else none

/-- The value of digits in a base. -/
def valueOf (base : Nat) (digits : List Char) : Nat :=
  digits.foldl (fun number digit => number * base + (Json.hexadecimalValue? digit).getD 0) 0

/-- The value of a decimal number without sign. It does not start with a zero, unless it is
zero. -/
def decimal? (chars : List Char) : Option Nat := do
  let digits ← digits? Char.isDigit chars
  if 1 < digits.length ∧ digits.head? = some '0' then none else some (valueOf 10 digits)

/-- Whether a character is a hexadecimal digit. -/
def isHexadecimalDigit (char : Char) : Bool := (Json.hexadecimalValue? char).isSome

/-- The value of a whole number: decimal with a sign or without, or in another base after its
mark. -/
def number? : List Char → Option Int
  | '+' :: rest => (decimal? rest).map Int.ofNat
  | '-' :: rest => (decimal? rest).map (fun number => -(number : Int))
  | '0' :: 'x' :: rest =>
    (digits? isHexadecimalDigit rest).map (fun digits => (valueOf 16 digits : Int))
  | '0' :: 'o' :: rest =>
    (digits? (fun char => '0' ≤ char && char ≤ '7') rest).map
      (fun digits => (valueOf 8 digits : Int))
  | '0' :: 'b' :: rest =>
    (digits? (fun char => char = '0' || char = '1') rest).map
      (fun digits => (valueOf 2 digits : Int))
  | chars => (decimal? chars).map Int.ofNat

/-- A whole number of sixty-four bits. -/
def integer? (chars : List Char) : Option Json := do
  let value ← number? chars
  if Int64.minValue.toInt ≤ value ∧ value ≤ Int64.maxValue.toInt then some (.int value) else none

/-- A value without quotes. -/
def word? (chars : List Char) : Option Json :=
  match String.ofList chars with
  | "true" => some (.bool true)
  | "false" => some (.bool false)
  | _ => integer? chars

/-- The value at the start of a line, and what follows it. -/
def value? : List Char → Option (Json × List Char)
  | '"' :: rest => (basicString? [] rest).map (fun (text, rest) => (.str text, rest))
  | '\x27' :: rest => (literalString? rest).map (fun (text, rest) => (.str text, rest))
  | chars =>
    (word? (chars.takeWhile isValueChar)).map (fun value => (value, chars.dropWhile isValueChar))

/-- The key at the start of a line, and what follows it. -/
def key? : List Char → Option (String × List Char)
  | '"' :: rest => basicString? [] rest
  | '\x27' :: rest => literalString? rest
  | chars =>
    let key := chars.takeWhile isKeyChar
    if key.isEmpty then none else some (String.ofList key, chars.dropWhile isKeyChar)

/-- Whether a line ends here: with spaces, and possibly a comment. -/
def isEnd (chars : List Char) : Bool :=
  match skipSpaces chars with
  | [] => true
  | '#' :: comment => comment.all isText
  | _ => false

/-- The key and the value of a line that has them; `none` if the line is malformed. -/
def pair? (line : List Char) : Option (String × Json) := do
  let (key, rest) ← key? line
  match skipSpaces rest with
  | '=' :: rest =>
    let (value, rest) ← value? (skipSpaces rest)
    if isEnd rest then some (key, value) else none
  | _ => none

/-- What a line adds to the table. -/
def line? (line : List Char) : Option (List (String × Json)) :=
  if isEnd line then some [] else (pair? (skipSpaces line)).map (fun pair => [pair])

/-- The lines of a text. A line feed ends a line, with or without a carriage return before it. -/
def lines : List Char → List (List Char)
  | [] => [[]]
  | '\r' :: '\n' :: rest => [] :: lines rest
  | '\n' :: rest => [] :: lines rest
  | char :: rest =>
    match lines rest with
    | first :: others => (char :: first) :: others
    | [] => [[char]]

/-- The characters of a document, without the byte order mark that may come first. -/
def withoutMark : List Char → List Char
  | '\ufeff' :: rest => rest
  | chars => chars

/-- The table of a document as an object; `none` if a line is malformed or a key is repeated. -/
def read? (text : String) : Option Json := do
  let members := (← (lines (withoutMark text.toList)).mapM line?).flatten
  if (members.map Prod.fst).Nodup then some (.obj members) else none

end JsEmitter.Toml
