import JsEmitter.Config
import JsEmitter.Linked.Validation

/-!
# Errors of emission

What ends a run without output. An error that was found in the program or in the configuration
is reported with its own text after a phrase that says where it was found.
-/
namespace JsEmitter

/-- What ends a run without output. -/
inductive EmitError where
  /-- A module for which nothing was generated, with the classes it has. -/
  | emptyModule (id : ModuleId) (classes : List ClassName)
  /-- A foreign class that has instances and no constructor. -/
  | missingJsConstructor (name : ClassName)
  /-- The second pass did not use the host names that it assumed. -/
  | refsDiverged (assumed observed : HostRefs)
  | invalidProgram (cause : ProgramError)
  | invalidConfig (cause : ConfigError)
deriving DecidableEq

namespace EmitError

/-- The text of an error. -/
def message : EmitError → String
  | emptyModule id classes =>
    "Module '" ++ id.text ++ "' generated no content (classes: " ++
      Text.quotedList (classes.map Name.text) ++ ")"
  | missingJsConstructor name =>
    "JS class '" ++ name.text ++ "' has instances but no JS constructor"
  | refsDiverged assumed observed =>
    "Dangerous global refs changed in the second pass: assumed " ++ assumed.text ++
      ", observed " ++ observed.text
  | invalidProgram cause => "Invalid module set: " ++ cause.message
  | invalidConfig cause => "Invalid configuration: " ++ cause.message

/-- The texts of an error and of what caused it. -/
def chain (error : EmitError) : List String :=
  match error with
  | invalidProgram cause => [error.message, cause.message]
  | invalidConfig cause => [error.message, cause.message]
  | _ => [error.message]

end EmitError

end JsEmitter
