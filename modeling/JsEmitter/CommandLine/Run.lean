import JsEmitter.CommandLine.Files
import JsEmitter.CommandLine.Help
import JsEmitter.Config.Form
import JsEmitter.Emitter.Report
import JsEmitter.Emitter.ResultJson
import JsEmitter.Json.Writing
import JsEmitter.Linked.ProgramJson
import JsEmitter.Toml

/-!
# Running commands

A command reads the files it names, the configuration first, and gives a text or the first error
that comes up. So running a command is a function of the arguments and the files.
-/
namespace JsEmitter.CommandLine

/-- What ends a command without output. -/
inductive CommandError where
  | unreadableProgram (file : String)
  | malformedProgram (file : String)
  | unreadableConfig (file : String)
  | malformedConfig (file : String)
  | invalidConfig (cause : ConfigError)
  | emission (file : String) (cause : EmitError)
  /-- One of several runs failed; the first has number one. -/
  | run (number : Nat) (file : String) (cause : EmitError)
deriving DecidableEq

namespace CommandError

/-- The texts of an error and of what caused it. -/
def chain : CommandError → List String
  | unreadableProgram file => ["Failed to read module set: " ++ Text.quoted file]
  | malformedProgram file => ["Failed to parse module set JSON: " ++ Text.quoted file]
  | unreadableConfig file => ["Failed to read config: " ++ Text.quoted file]
  | malformedConfig file => ["Failed to parse config TOML: " ++ Text.quoted file]
  | invalidConfig cause => ["Invalid emitter configuration", cause.message]
  | emission file cause => ("Failed to emit " ++ Text.quoted file) :: cause.chain
  | run number file cause =>
    ("Run " ++ toString number ++ " failed on " ++ Text.quoted file) :: cause.chain

/-- The text of an error, followed by what caused it. -/
def message (error : CommandError) : String := ": ".intercalate error.chain

end CommandError

/-- The value of an option, or an error. -/
def require {α : Type} (error : CommandError) : Option α → Except CommandError α
  | some value => .ok value
  | none => .error error

/-- The program in a file. -/
def loadProgram (files : Files) (file : String) : Except CommandError Program := do
  let text ← require (.unreadableProgram file) (files file)
  require (.malformedProgram file) (Program.read? text)

/-- The configuration that a TOML text describes. -/
def readConfig? (text : String) : Option Config := (Toml.read? text).bind Config.ofJson?

/-- The configuration in a file, checked, or the standard one. -/
def loadConfig (files : Files) (file? : Option String) : Except CommandError Config := do
  let config ← match file? with
    | some file => do
      let text ← require (.unreadableConfig file) (files file)
      require (.malformedConfig file) (readConfig? text)
    | none => pure .standard
  config.validate.mapError .invalidConfig
  return config

/-- Emit one program, and give the outline of the run, or the whole result as JSON. -/
def runEmit (files : Files) (input : String) (config? : Option String) (dump : Bool) :
    Except CommandError String := do
  let config ← loadConfig files config?
  let program ← loadProgram files input
  match Emitter.emit program (.start config) with
  | .ok result _ => return if dump then Json.writeLines 0 result.toJson else result.report
  | .error error _ => throw (.emission input error)

/-- Emit programs with one emitter, counting the runs from a number on. -/
def rerunFrom (files : Files) (number : Nat) (emitter : Emitter) :
    List String → Except CommandError (List EmitStats)
  | [] => return []
  | input :: rest => do
    let program ← loadProgram files input
    match Emitter.emit program emitter with
    | .ok result reached => return result.stats :: (← rerunFrom files (number + 1) reached rest)
    | .error error _ => throw (.run number input error)

/-- Emit programs one after the other with one emitter, and give the counters of every run. -/
def rerun (files : Files) (inputs : List String) (config? : Option String) :
    Except CommandError (List EmitStats) := do
  let config ← loadConfig files config?
  rerunFrom files 1 (.start config) inputs

/-- The counters of runs on lines. -/
def rerunText (runs : List EmitStats) : String :=
  String.join (runs.zipIdx.map (fun (stats, position) =>
    "run " ++ toString (position + 1) ++ ": " ++ stats.text ++ "\n"))

namespace Command

/-- The files that a command reads. -/
def files : Command → List String
  | emit input config? _ => input :: config?.toList
  | rerun inputs config? => inputs ++ config?.toList
  | checkConfig config => [config]

/-- What a command shows. -/
def run (files : Files) : Command → Except CommandError String
  | emit input config? dump => runEmit files input config? dump
  | rerun inputs config? => rerunText <$> CommandLine.rerun files inputs config?
  | checkConfig config => do return (← loadConfig files (some config)).display ++ "\n"

end Command

/-- What the program leaves behind: the exit code, the output, and what it complains about. -/
structure Outcome where
  code : Nat
  output : String
  complaint : String
deriving DecidableEq

/-- What the program knows of where it runs. -/
structure Environment where
  /-- The name under which it is called. -/
  program : String
  /-- The configuration to use where none is given. -/
  config? : Option String
  files : Files

namespace Environment

/-- The variable of a program of some name that may give the configuration. -/
def variableOf (program : String) : String := program.toUpper ++ "_CONFIG"

/-- The variable that may give the configuration, with its value. -/
def variableText (environment : Environment) : String :=
  variableOf environment.program ++ "=" ++ environment.config?.getD ""

end Environment

/-- What a request leads to. -/
def Request.outcome (environment : Environment) : Request → Outcome
  | .help topic? => ⟨0, CommandLine.help environment.program environment.variableText topic?, ""⟩
  | .run command =>
    match command.run environment.files with
    | .ok text => ⟨0, text, ""⟩
    | .error error => ⟨1, "", "Error: " ++ error.message ++ "\n"⟩

/-- What a list of arguments leads to: code zero for success, one for a command that fails, and
two for arguments that cannot be understood. -/
def outcome (environment : Environment) (arguments : List String) : Outcome :=
  match Request.ofArguments? environment.config? arguments with
  | some request => request.outcome environment
  | none => ⟨2, "", "Usage: " ++ programUsage environment.program ++ "\n"⟩

end JsEmitter.CommandLine
