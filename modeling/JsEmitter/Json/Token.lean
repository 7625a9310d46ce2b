import JsEmitter.Json.Number

/-!
# Tokens of JSON text

The text is read character by character. What has been read of an unfinished token is the state
of the lexer, and each character yields the next state and the tokens it completes; a text is a
list of tokens when no step fails and the last state is between tokens.
-/
namespace JsEmitter.Json

/-- A token of JSON text. -/
inductive Token where
  | openArray
  | closeArray
  | openObject
  | closeObject
  | comma
  | colon
  /-- A string; `none` if a surrogate in it has no partner. -/
  | text (content? : Option String)
  /-- A word or a number. -/
  | scalar (value : Json)

/-- What has been read of a string. A character beyond sixteen bits may be written as two escaped
code units, the high surrogate before the low one. -/
structure StringPart where
  /-- The characters so far; `none` once a surrogate has stayed without its partner. -/
  content? : Option String
  /-- The high surrogate that comes just before, if there is one. -/
  high? : Option Nat

namespace StringPart

/-- A string before its first character. -/
def empty : StringPart := ⟨some "", none⟩

/-- The string with one more character. -/
def push (part : StringPart) (char : Char) : StringPart :=
  match part.high? with
  | some _ => ⟨none, none⟩
  | none => ⟨part.content?.map (·.push char), none⟩

/-- Whether a code unit is a high surrogate. -/
def isHigh (unit : Nat) : Bool := 0xd800 ≤ unit && unit ≤ 0xdbff

/-- Whether a code unit is a low surrogate. -/
def isLow (unit : Nat) : Bool := 0xdc00 ≤ unit && unit ≤ 0xdfff

/-- The character of a pair of surrogates. -/
def paired (high low : Nat) : Char :=
  Char.ofNat (0x10000 + (high - 0xd800) * 0x400 + (low - 0xdc00))

/-- The string with one more code unit. -/
def pushUnit (part : StringPart) (unit : Nat) : StringPart :=
  match part.high? with
  | some high =>
    if isLow unit then ⟨part.content?.map (·.push (paired high unit)), none⟩ else ⟨none, none⟩
  | none =>
    if isHigh unit then ⟨part.content?, some unit⟩
    else if isLow unit then ⟨none, none⟩
    else part.push (Char.ofNat unit)

/-- The token of the string when it ends here. -/
def token (part : StringPart) : Token :=
  match part.high? with
  | some _ => .text none
  | none => .text part.content?

end StringPart

/-- What has been read of the current token. -/
inductive LexState where
  /-- Between tokens. -/
  | between
  /-- A word of letters. -/
  | word (letters : String)
  /-- A number, its characters in reverse. -/
  | number (reversed : List Char)
  /-- A string up to here. -/
  | string (part : StringPart)
  /-- A string after a backslash. -/
  | escape (part : StringPart)
  /-- A string inside a code unit of so many remaining digits. -/
  | unit (part : StringPart) (value remaining : Nat)

/-- Whether a character separates tokens. -/
def isSpace (char : Char) : Bool := char = ' ' || char = '\n' || char = '\r' || char = '\t'

/-- Whether a character may stand in a number. -/
def isNumberChar (char : Char) : Bool :=
  char.isDigit || char = '-' || char = '+' || char = '.' || char = 'e' || char = 'E'

/-- The value of a hexadecimal digit. -/
def hexadecimalValue? (char : Char) : Option Nat :=
  if char.isDigit then some (char.toNat - '0'.toNat)
  else if 'a' ≤ char && char ≤ 'f' then some (char.toNat - 'a'.toNat + 10)
  else if 'A' ≤ char && char ≤ 'F' then some (char.toNat - 'A'.toNat + 10)
  else none

/-- The token that a word of letters is. -/
def wordToken? (letters : String) : Option Token :=
  match letters with
  | "null" => some (.scalar .null)
  | "true" => some (.scalar (.bool true))
  | "false" => some (.scalar (.bool false))
  | _ => none

/-- The character that stands for itself after a backslash or is named by a letter. -/
def escapedChar? (char : Char) : Option Char :=
  match char with
  | '"' => some '"'
  | '\\' => some '\\'
  | '/' => some '/'
  | 'b' => some '\x08'
  | 'f' => some '\x0c'
  | 'n' => some '\n'
  | 'r' => some '\r'
  | 't' => some '\t'
  | _ => none

/-- The state after a character between tokens, and the token it is. -/
def lexBetween (char : Char) : Option (LexState × List Token) :=
  match char with
  | '[' => some (.between, [.openArray])
  | ']' => some (.between, [.closeArray])
  | '\x7b' => some (.between, [.openObject])
  | '\x7d' => some (.between, [.closeObject])
  | ',' => some (.between, [.comma])
  | ':' => some (.between, [.colon])
  | '"' => some (.string .empty, [])
  | _ =>
    if isSpace char then some (.between, [])
    else if char.isDigit || char = '-' then some (.number [char], [])
    else if 'a' ≤ char && char ≤ 'z' then some (.word (String.singleton char), [])
    else none

/-- The token of the characters of a number; `none` if they are no number. -/
def numberToken? (reversed : List Char) : Option Token :=
  (NumberText.ofChars? reversed.reverse).map (fun number =>
    .scalar (number.json?.getD .unreadable))

/-- The state after one more character, and the tokens that it completes. -/
def lexStep (state : LexState) (char : Char) : Option (LexState × List Token) :=
  match state with
  | .between => lexBetween char
  | .word letters =>
    if 'a' ≤ char && char ≤ 'z' then some (.word (letters.push char), [])
    else do
      let token ← wordToken? letters
      let (next, tokens) ← lexBetween char
      some (next, token :: tokens)
  | .number reversed =>
    if isNumberChar char then some (.number (char :: reversed), [])
    else do
      let token ← numberToken? reversed
      let (next, tokens) ← lexBetween char
      some (next, token :: tokens)
  | .string part =>
    if char = '"' then some (.between, [part.token])
    else if char = '\\' then some (.escape part, [])
    else if char.toNat < 0x20 then none
    else some (.string (part.push char), [])
  | .escape part =>
    if char = 'u' then some (.unit part 0 4, [])
    else (escapedChar? char).map (fun escaped => (.string (part.push escaped), []))
  | .unit part value remaining => do
    let value := value * 16 + (← hexadecimalValue? char)
    if remaining ≤ 1 then some (.string (part.pushUnit value), [])
    else some (.unit part value (remaining - 1), [])

/-- The tokens that the end of the text completes. -/
def lexEnd : LexState → Option (List Token)
  | .between => some []
  | .word letters => (wordToken? letters).map (fun token => [token])
  | .number reversed => (numberToken? reversed).map (fun token => [token])
  | _ => none

/-- The tokens of a text, in reverse and after those that were read before. -/
def lexFrom (state : LexState) (reversed : List Token) : List Char → Option (List Token)
  | [] => (lexEnd state).map (fun tokens => tokens.reverse ++ reversed)
  | char :: rest =>
    match lexStep state char with
    | some (next, tokens) => lexFrom next (tokens.reverse ++ reversed) rest
    | none => none

/-- The tokens of a text; `none` if it is not made of tokens. -/
def tokens? (text : String) : Option (List Token) :=
  (lexFrom .between [] text.toList).map List.reverse

end JsEmitter.Json
