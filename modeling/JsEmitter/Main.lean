import JsEmitter.CommandLine.Run

/-!
# The program

Reads the files that the command names, and prints what comes out.
-/
namespace JsEmitter

open CommandLine

/-- The name of the program. -/
def programName : String := "jsemitter"

/-- The contents of the files that can be read. -/
def readFiles (names : List String) : IO (List (String × String)) :=
  names.filterMapM (fun (name : String) => do
    try
      let text ← IO.FS.readFile name
      return some (name, text)
    catch _ => return none)

/-- The files that a list of arguments asks for. -/
def requestedFiles (config? : Option String) (arguments : List String) : List String :=
  match Request.ofArguments? config? arguments with
  | some (.run command) => command.files
  | _ => []

/-- Run the program on a list of arguments, and give its exit code. -/
def runProgram (arguments : List String) : IO UInt32 := do
  let config? ← IO.getEnv (Environment.variableOf programName)
  let contents ← readFiles (requestedFiles config? arguments)
  let result := outcome ⟨programName, config?, fun name => contents.lookup name⟩ arguments
  IO.print result.output
  IO.eprint result.complaint
  return UInt32.ofNat result.code

end JsEmitter

/-- Run the program. -/
def main (arguments : List String) : IO UInt32 := JsEmitter.runProgram arguments
