/-!
# Identifiers

A property can be selected with a dot when its name is an identifier of ASCII characters that is
not reserved.
-/
namespace JsEmitter.Lowering

/-- Words that cannot follow a dot in older engines. -/
def reservedWords : List String := [
  "break", "case", "catch", "class", "const", "continue", "debugger", "default", "delete", "do",
  "else", "enum", "export", "extends", "false", "finally", "for", "function", "if", "import", "in",
  "instanceof", "new", "null", "return", "super", "switch", "this", "throw", "true", "try",
  "typeof", "var", "void", "while", "with", "yield", "let", "static"]

/-- Whether a character may start an identifier. -/
def startsIdentifier (char : Char) : Bool := char.isAlpha || char = '_' || char = '$'

/-- Whether a character may stand in an identifier after the first. -/
def continuesIdentifier (char : Char) : Bool := startsIdentifier char || char.isDigit

/-- Whether a list of characters has the form of an identifier. -/
def hasIdentifierForm : List Char → Bool
  | first :: rest => startsIdentifier first && rest.all continuesIdentifier
  | [] => false

/-- Whether a name can follow a dot. -/
def isIdentifier (name : String) : Bool :=
  hasIdentifierForm name.toList && !reservedWords.contains name

end JsEmitter.Lowering
