/-!
# Options on a command line

A command has options by name, and some of them by a letter too. An option stands alone or takes
a value: the next argument, what follows the letter, or what follows an equals sign. Letters of
options without value may be joined. Every command understands the option that asks for help;
what comes after it is not looked at. Two dashes end the options.
-/
namespace JsEmitter.CommandLine

/-- An option of a command. -/
structure OptionSpec where
  letter? : Option Char
  name : String
  /-- What stands for the value in the help, if the option takes one. -/
  placeholder? : Option String
  isRequired : Bool
  isRepeatable : Bool
  about : String
deriving DecidableEq

/-- The option that asks for help. -/
def OptionSpec.help : OptionSpec := ⟨some 'h', "help", none, false, true, "Print help"⟩

/-- An argument by its form. -/
inductive Argument where
  /-- Two dashes and a name, with what follows an equals sign. -/
  | long (name : String) (value? : Option String)
  /-- A dash and letters. -/
  | letters (chars : List Char)
  /-- Two dashes. -/
  | separator
  | plain (text : String)

/-- The form of an argument. -/
def Argument.ofChars : List Char → Argument
  | ['-'] => .plain "-"
  | ['-', '-'] => .separator
  | '-' :: '-' :: rest =>
    let name := rest.takeWhile (· ≠ '=')
    .long (String.ofList name) ((rest.drop name.length).tail?.map String.ofList)
  | '-' :: rest => .letters rest
  | chars => .plain (String.ofList chars)

/-- An option that was given, with its value, which is empty if it takes none. -/
structure Given where
  option : String
  value : String
deriving DecidableEq

namespace Given

/-- The values of an option, in order. -/
def values (given : List Given) (option : String) : List String :=
  (given.filter (fun one => one.option = option)).map Given.value

/-- Whether an option was given. -/
def has (given : List Given) (option : String) : Bool :=
  given.any (fun one => one.option = option)

end Given

/-- How far the reading of arguments has come. -/
inductive Progress where
  /-- So many options have been read. -/
  | options (given : List Given)
  /-- An option waits for its value in the next argument. -/
  | awaiting (given : List Given) (spec : OptionSpec)
  | help

/-- What the arguments of a command are. -/
inductive Scan where
  | help
  /-- Options only. -/
  | complete (given : List Given)
  /-- Options before a plain argument, and what follows it. -/
  | stopped (given : List Given) (argument : String) (rest : List String)

namespace OptionSpec

/-- One more option. A value is never empty, and an option comes once unless it is repeatable. -/
def add? (spec : OptionSpec) (value : String) (given : List Given) : Option (List Given) :=
  if spec.placeholder?.isSome && value.isEmpty then none
  else if !spec.isRepeatable && Given.has given spec.name then none
  else some (given ++ [⟨spec.name, value⟩])

/-- What follows a letter, without an equals sign in front. -/
def attached (chars : List Char) : String :=
  match chars with
  | '=' :: value => String.ofList value
  | value => String.ofList value

/-- The progress after joined letters. -/
def readLetters? (specs : List OptionSpec) (given : List Given) : List Char → Option Progress
  | [] => some (.options given)
  | letter :: rest => do
    let spec ← (specs ++ [help]).find? (fun spec => spec.letter? = some letter)
    if spec = help then some .help
    else if spec.placeholder?.isSome then
      if rest.isEmpty then some (.awaiting given spec)
      else (spec.add? (attached rest) given).map .options
    else readLetters? specs (← spec.add? "" given) rest

/-- The progress after an option by name. -/
def readLong? (specs : List OptionSpec) (given : List Given) (name : String)
    (value? : Option String) : Option Progress := do
  let spec ← (specs ++ [help]).find? (fun spec => spec.name = name)
  match spec.placeholder?, value? with
  | some _, some value => (spec.add? value given).map .options
  | some _, none => some (.awaiting given spec)
  | none, none =>
    if spec = help then some .help else (spec.add? "" given).map .options
  | none, some _ => none

/-- Read arguments up to the first plain one; `none` if they are not as the options say. -/
def scan? (specs : List OptionSpec) (given : List Given) : List String → Option Scan
  | [] => some (.complete given)
  | argument :: rest =>
    let continue? (progress? : Option Progress) : Option Scan :=
      match progress?, rest with
      | some .help, _ => some .help
      | some (.options given), rest => scan? specs given rest
      | some (.awaiting given spec), value :: rest =>
        match Argument.ofChars value.toList with
        | .plain value => do scan? specs (← spec.add? value given) rest
        | _ => none
      | _, _ => none
    match Argument.ofChars argument.toList with
    | .plain argument => some (.stopped given argument rest)
    | .separator => if rest.isEmpty then some (.complete given) else none
    | .letters chars => continue? (readLetters? specs given chars)
    | .long name value? => continue? (readLong? specs given name value?)

/-- Whether every required option was given. -/
def isSatisfied (specs : List OptionSpec) (given : List Given) : Bool :=
  specs.all (fun spec => !spec.isRequired || Given.has given spec.name)

end OptionSpec

end JsEmitter.CommandLine
