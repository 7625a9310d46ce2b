import JsEmitter.CommandLine.Options

/-!
# Commands

The commands of the program with their options, and what a list of arguments asks for. Options
of the program itself, which only change what is logged, stand before the command.
-/
namespace JsEmitter.CommandLine

/-- What the program is told to do. -/
inductive Command where
  /-- Emit a program once, and show the outline of the run or the whole result. -/
  | emit (input : String) (config? : Option String) (dump : Bool)
  /-- Emit programs one after the other, and show what was reused. -/
  | rerun (inputs : List String) (config? : Option String)
  | checkConfig (config : String)
deriving DecidableEq

/-- The commands by name. -/
inductive CommandName where
  | emit
  | rerun
  | checkConfig
  | help
deriving DecidableEq

namespace CommandName

/-- The commands in their fixed order. -/
def all : List CommandName := [emit, rerun, checkConfig, help]

/-- The word for a command. -/
def text : CommandName → String
  | emit => "emit"
  | rerun => "rerun"
  | checkConfig => "check-config"
  | help => "help"

/-- What a command does. -/
def about : CommandName → String
  | emit => "Emit a module set once"
  | rerun => "Emit successive module sets with one emitter and report cache reuse"
  | checkConfig => "Parse and validate an emitter configuration"
  | help => "Print this message or the help of the given subcommand(s)"

/-- The command that a word names. -/
def ofText? (text : String) : Option CommandName := all.find? (fun name => name.text = text)

end CommandName

/-- The option for the file of a program. -/
def inputOption (isRepeatable : Bool) (about : String) : OptionSpec :=
  ⟨some 'i', "input", some "INPUT", true, isRepeatable, about⟩

/-- The option for the file of a configuration. -/
def configOption (isRequired : Bool) (about : String) : OptionSpec :=
  ⟨some 'c', "config", some "CONFIG", isRequired, false, about⟩

/-- What the option for a configuration is about. -/
def configAbout : String := "Emitter configuration (TOML format)"

/-- The options of the program itself. -/
def programOptions : List OptionSpec := [
  ⟨some 'v', "verbose", none, false, false, "Enable verbose output"⟩,
  ⟨some 'd', "debug", none, false, false, "Enable debug output"⟩]

/-- What the option for a configuration is about where a variable may give it. -/
def variableAbout (setting : String) : String := configAbout ++ " [env: " ++ setting ++ "]"

/-- The options of a command; the text for the variable that may give the configuration is shown
in the help. -/
def CommandName.options (setting : String) : CommandName → List OptionSpec
  | emit => [
    inputOption false "Module set (JSON format)",
    configOption false (variableAbout setting),
    ⟨none, "dump", none, false, false, "Print the full result as JSON instead of an outline"⟩]
  | rerun => [
    inputOption true "Module sets in run order",
    configOption false (variableAbout setting)]
  | checkConfig => [configOption true configAbout]
  | help => []

/-- What a list of arguments asks for. -/
inductive Request where
  | run (command : Command)
  /-- Help about a command, or about the program. -/
  | help (topic? : Option CommandName)
deriving DecidableEq

/-- The configuration of a command: the given one, or else the one of the environment, which may
not be empty. -/
def chosenConfig? (fallback? : Option String) (given : List Given) : Option (Option String) :=
  match (Given.values given "config").head?, fallback? with
  | some config, _ => some (some config)
  | none, some "" => none
  | none, fallback? => some fallback?

/-- The command with its options. -/
def Command.ofGiven? (fallback? : Option String) (name : CommandName) (given : List Given) :
    Option Command :=
  match name with
  | .emit => do
    let input ← (Given.values given "input").head?
    return .emit input (← chosenConfig? fallback? given) (Given.has given "dump")
  | .rerun => return .rerun (Given.values given "input") (← chosenConfig? fallback? given)
  | .checkConfig => do return .checkConfig (← (Given.values given "config").head?)
  | .help => none

/-- What the arguments after the name of a command ask for. -/
def CommandName.request? (fallback? : Option String) (name : CommandName)
    (arguments : List String) : Option Request :=
  match OptionSpec.scan? (name.options "") [] arguments with
  | some .help => some (.help (some name))
  | some (.complete given) =>
    if OptionSpec.isSatisfied (name.options "") given then
      (Command.ofGiven? fallback? name given).map .run
    else none
  | _ => none

/-- What the words after the command for help ask for. -/
def helpRequest? : List String → Option Request
  | [] => some (.help none)
  | [word] => (CommandName.ofText? word).map (fun topic => .help (some topic))
  | _ => none

/-- What a list of arguments asks for; `none` if they cannot be understood. A configuration that
the environment gives is used where none is given. -/
def Request.ofArguments? (fallback? : Option String) (arguments : List String) :
    Option Request :=
  match OptionSpec.scan? programOptions [] arguments with
  | some .help => some (.help none)
  | some (.stopped _ word rest) => do
    match ← CommandName.ofText? word with
    | .help => helpRequest? rest
    | name => name.request? fallback? rest
  | _ => none

end JsEmitter.CommandLine
