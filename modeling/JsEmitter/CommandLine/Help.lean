import JsEmitter.CommandLine.Command

/-!
# Help

The help of the program and of its commands: what it is about, how it is called, and a table of
the commands or options, with the second column behind the widest entry of the first.
-/
namespace JsEmitter.CommandLine

/-- A row of a table: the entry and what it is about. -/
abbrev HelpRow := String × String

/-- A table under a title. -/
structure HelpTable where
  title : String
  rows : List HelpRow

namespace HelpTable

/-- The width of the first column. -/
def width (table : HelpTable) : Nat :=
  (table.rows.map (fun row => row.1.length)).foldl max 0

/-- A text filled up with spaces to a width. -/
def padded (width : Nat) (text : String) : String :=
  text.pushn ' ' (width - text.length)

/-- A row on its line. -/
def line (width : Nat) (row : HelpRow) : String :=
  "  " ++ padded width row.1 ++ "  " ++ row.2 ++ "\n"

/-- A table on lines, after an empty one. -/
def text (table : HelpTable) : String :=
  "\n" ++ table.title ++ ":\n" ++ String.join (table.rows.map (line table.width))

end HelpTable

/-- An option with its letter and what stands for its value. -/
def OptionSpec.label (spec : OptionSpec) : String :=
  (match spec.letter? with
    | some letter => "-" ++ String.singleton letter ++ ", "
    | none => "    ") ++
  "--" ++ spec.name ++ ((spec.placeholder?.map (fun text => " <" ++ text ++ ">")).getD "")

/-- The table of options. -/
def optionTable (specs : List OptionSpec) : HelpTable :=
  ⟨"Options", (specs ++ [OptionSpec.help]).map (fun spec => (spec.label, spec.about))⟩

/-- How the options of a command are shown in its call: those that may be left out together, and
the required ones with their values. -/
def optionsUsage (specs : List OptionSpec) : String :=
  (if specs.any (fun spec => !spec.isRequired) then " [OPTIONS]" else "") ++
  String.join ((specs.filter OptionSpec.isRequired).map (fun spec =>
    " --" ++ spec.name ++ ((spec.placeholder?.map (fun text => " <" ++ text ++ ">")).getD "")))

/-- What help consists of: what a command is about, its call, and tables. -/
def helpText (about usage : String) (tables : List HelpTable) : String :=
  about ++ "\n\nUsage: " ++ usage ++ "\n" ++ String.join (tables.map HelpTable.text)

/-- How the program is called. -/
def programUsage (program : String) : String := program ++ " [OPTIONS] <COMMAND>"

/-- The help of the program. -/
def programHelp (program : String) : String :=
  helpText "Incrementally emit target code from linked class IR" (programUsage program)
    [⟨"Commands", CommandName.all.map (fun name => (name.text, name.about))⟩,
      optionTable programOptions]

/-- The help of a command of the program. -/
def CommandName.helpText (program setting : String) (name : CommandName) : String :=
  match name with
  | .help =>
    CommandLine.helpText name.about (program ++ " help [COMMAND]...")
      [⟨"Arguments", [("[COMMAND]...", "Print help for the subcommand(s)")]⟩]
  | name =>
    CommandLine.helpText name.about
      (program ++ " " ++ name.text ++ optionsUsage (name.options setting))
      [optionTable (name.options setting)]

/-- The help about a command, or about the program. -/
def help (program setting : String) (topic? : Option CommandName) : String :=
  match topic? with
  | some name => name.helpText program setting
  | none => programHelp program

end JsEmitter.CommandLine
