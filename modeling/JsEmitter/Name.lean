/-!
# Names of the linked program

Classes, methods, fields and modules are named by texts that the linker chose. A name carries
what it names in its type, so a method is never looked up among the classes. Names are ordered
by code points. `encode` turns a name into letters, digits, dollars and underscores, for use
inside generated identifiers.
-/
namespace JsEmitter

/-- What a name of the linked program names. -/
inductive NameKind where
  | classes
  | methods
  | fields
  | modules
deriving DecidableEq, Repr

/-- A name of the linked program. -/
structure Name (kind : NameKind) where
  /-- The name as the linker wrote it. -/
  text : String
deriving DecidableEq, Repr, Inhabited

/-- Fully qualified class name. -/
abbrev ClassName := Name .classes

/-- Method name with its signature. -/
abbrev MethodName := Name .methods

/-- Field name, unique within its class. -/
abbrev FieldName := Name .fields

/-- Identity of a module. -/
abbrev ModuleId := Name .modules

namespace Name

variable {kind : NameKind}

/-- Names are compared by their texts. -/
instance : Ord (Name kind) := ⟨fun left right => compare left.text right.text⟩

instance : Std.OrientedOrd (Name kind) where
  eq_swap {left right} := (Std.OrientedOrd.eq_swap : compare left.text right.text = _)

instance : Std.TransOrd (Name kind) where
  isLE_trans {first second third} (before : (compare first.text second.text).isLE)
      (after : (compare second.text third.text).isLE) :=
    (Std.TransOrd.isLE_trans before after : (compare first.text third.text).isLE)

instance : Std.LawfulEqOrd (Name kind) where
  eq_of_compare {left right} same := by
    cases left
    cases right
    exact congrArg Name.mk (Std.LawfulEqOrd.eq_of_compare same)

end Name

/-- Hexadecimal code point of a character, at least four digits wide. -/
def codePointDigits (char : Char) : List Char :=
  let digits := Nat.toDigits 16 char.toNat
  List.replicate (4 - digits.length) '0' ++ digits

/-- Whether a character is an ASCII letter or digit. -/
def isAsciiAlphanumeric (char : Char) : Bool := char.isAlphanum

/-- How one character of a name is encoded: letters and digits stay, a dot becomes an underscore,
and anything else is escaped after a dollar. -/
def encodeChar (char : Char) : List Char :=
  if isAsciiAlphanumeric char then [char]
  else if char = '.' then ['_']
  else if char = '_' then ['$', '_']
  else '$' :: 'u' :: codePointDigits char

/-- A text as part of an identifier. -/
def encode (text : String) : String := String.ofList (text.toList.flatMap encodeChar)

/-- A name as part of an identifier. -/
def Name.encoded {kind : NameKind} (name : Name kind) : String := encode name.text

namespace ClassName

/-- The class that every other class descends from. -/
def root : ClassName := ⟨"lang.Object"⟩

/-- The root of the throwable classes. -/
def throwable : ClassName := ⟨"lang.Throwable"⟩

/-- Whether this is the root class. -/
def isRoot (name : ClassName) : Bool := name = root

/-- Whether this is the root throwable. -/
def isThrowable (name : ClassName) : Bool := name = throwable

/-- What `typeof` gives for the instances of a class whose instances are host primitives. -/
def primitiveType? (name : ClassName) : Option String :=
  match name.text with
  | "lang.Boolean" => some "boolean"
  | "lang.Byte" | "lang.Short" | "lang.Integer" | "lang.Float" | "lang.Double" => some "number"
  | "lang.String" => some "string"
  | "lang.Void" => some "undefined"
  | _ => none

end ClassName

/-- The host constructor that the root throwable extends. -/
def hostErrorName : String := "Error"

end JsEmitter
