import JsEmitter.HostRefs
import JsEmitter.Name
import JsEmitter.Text.Blank
import JsEmitter.Text.Quoted

/-!
# Configuration of the emitter

The configuration says how modules refer to each other, which syntax classes take, under which
path a module is imported, what stands in front of every module, and which host names are
recorded. `Config.validate` reports the first part that cannot be used: the header before the
path pattern.
-/
namespace JsEmitter

/-- How generated modules refer to each other. -/
inductive ModuleKind where
  /-- One script without imports and exports. -/
  | script
  | esModule
  | commonJs
deriving DecidableEq, Repr, Inhabited

/-- The configuration of the emitter. -/
structure Config where
  moduleKind : ModuleKind
  /-- Whether classes are written as class definitions, and not as constructor functions. -/
  classSyntax : Bool
  /-- The import path of a module, with a placeholder for its id. -/
  modulePathPattern : String
  /-- What stands in front of every module. -/
  header : String
  tracking : Tracking
  /-- Whether properties are selected with a dot where their name allows it. -/
  dotSelects : Bool
deriving DecidableEq

/-- What makes a configuration unusable. -/
inductive ConfigError where
  /-- The header holds something else than blanks and comments; the rest of that line. -/
  | invalidHeader (line : String)
  | unterminatedHeaderComment
  | missingHeaderNewline
  | emptyPathPattern
  | missingPlaceholder (pattern : String)
  | tooManyModules (count : Nat)
deriving DecidableEq

/-- The text of an error. -/
def ConfigError.message : ConfigError → String
  | invalidHeader line => "Header must only contain comments and whitespace, found: " ++ line
  | unterminatedHeaderComment => "Header ends inside an unterminated block comment"
  | missingHeaderNewline =>
    "Header ends with a line comment that is not followed by a newline"
  | emptyPathPattern => "Module path pattern is empty"
  | missingPlaceholder pattern =>
    "Module path pattern '" ++ pattern ++ "' does not contain the \x7bmodule\x7d placeholder"
  | tooManyModules count =>
    "Module kind 'none' supports a single module, got " ++ toString count

namespace Config

/-- Where the reading of a header stands. -/
inductive HeaderState where
  | betweenComments
  | afterSlash
  | inLineComment
  | inBlockComment
  /-- In a block comment after an asterisk. -/
  | afterStar
deriving DecidableEq

/-- A text up to the end of its first line, which a line feed ends, with or without a carriage
return before it. -/
def firstLine (chars : List Char) : List Char :=
  let line := chars.takeWhile (· ≠ '\n')
  if line.length < chars.length && line.getLast? = some '\r' then line.dropLast else line

/-- The error for a header with other text than comments. -/
def otherText (chars : List Char) : ConfigError := .invalidHeader (String.ofList (firstLine chars))

/-- Check that a header, read up to a state, goes on with blanks and complete comments. -/
def checkHeaderFrom : HeaderState → List Char → Except ConfigError Unit
  | .betweenComments, [] => .ok ()
  | .betweenComments, char :: rest =>
    if Text.isBlank char then checkHeaderFrom .betweenComments rest
    else if char = '/' then checkHeaderFrom .afterSlash rest
    else .error (otherText (char :: rest))
  | .afterSlash, [] => .error (otherText ['/'])
  | .afterSlash, char :: rest =>
    if char = '/' then checkHeaderFrom .inLineComment rest
    else if char = '*' then checkHeaderFrom .inBlockComment rest
    else .error (otherText ('/' :: char :: rest))
  | .inLineComment, [] => .error .missingHeaderNewline
  | .inLineComment, char :: rest =>
    if char = '\n' then checkHeaderFrom .betweenComments rest
    else checkHeaderFrom .inLineComment rest
  | .inBlockComment, [] => .error .unterminatedHeaderComment
  | .inBlockComment, char :: rest =>
    if char = '*' then checkHeaderFrom .afterStar rest else checkHeaderFrom .inBlockComment rest
  | .afterStar, [] => .error .unterminatedHeaderComment
  | .afterStar, char :: rest =>
    if char = '/' then checkHeaderFrom .betweenComments rest
    else if char = '*' then checkHeaderFrom .afterStar rest
    else checkHeaderFrom .inBlockComment rest

/-- Check that a header consists of blanks and complete comments. -/
def checkHeader (header : String) : Except ConfigError Unit :=
  checkHeaderFrom .betweenComments header.toList

/-- Replace every placeholder for a module id, from left to right. -/
def substitute (id : List Char) : List Char → List Char
  | '\x7b' :: 'm' :: 'o' :: 'd' :: 'u' :: 'l' :: 'e' :: '\x7d' :: rest => id ++ substitute id rest
  | char :: rest => char :: substitute id rest
  | [] => []

/-- Whether a pattern holds the placeholder. -/
def hasPlaceholder : List Char → Bool
  | '\x7b' :: 'm' :: 'o' :: 'd' :: 'u' :: 'l' :: 'e' :: '\x7d' :: _ => true
  | _ :: rest => hasPlaceholder rest
  | [] => false

/-- The configuration where nothing is said. -/
def standard : Config where
  moduleKind := .script
  classSyntax := true
  modulePathPattern := "./\x7bmodule\x7d.js"
  header := ""
  tracking := .dangerous
  dotSelects := true

instance : Inhabited Config := ⟨standard⟩

/-- Check that paths can be made from the pattern. -/
def checkPattern (pattern : String) : Except ConfigError Unit :=
  if pattern.isEmpty then .error .emptyPathPattern
  else if hasPlaceholder pattern.toList then .ok ()
  else .error (.missingPlaceholder pattern)

/-- Check everything that does not depend on the program. -/
def validate (config : Config) : Except ConfigError Unit := do
  checkHeader config.header
  checkPattern config.modulePathPattern

/-- Check that so many modules can be emitted. -/
def validateModuleCount (config : Config) (count : Nat) : Except ConfigError Unit :=
  if config.moduleKind = .script ∧ 1 < count then .error (.tooManyModules count) else .ok ()

/-- The path under which a module is imported. -/
def modulePath (config : Config) (id : ModuleId) : String :=
  String.ofList (substitute id.text.toList config.modulePathPattern.toList)

end Config

end JsEmitter
