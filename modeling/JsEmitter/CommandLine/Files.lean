/-!
# Files by path

Commands name files by paths from the current directory. A path is a list of names between
slashes, of which the empty ones and single dots lead nowhere. The files are what a lookup by path
finds, so everything that reads them is a function of its arguments.
-/
namespace JsEmitter.CommandLine

/-- The contents of files by path; `none` for a file that cannot be read. -/
abbrev Files := String → Option String

/-- The names on the way from the current directory to a file; `none` for a path that starts
elsewhere, that goes up, or that can only end at a directory. -/
def pathNames? (path : String) : Option (List String) :=
  let names := path.splitOn "/"
  if names.head? = some "" ∨ names.getLast? = some "" ∨ names.getLast? = some "." ∨
      ".." ∈ names then none
  else some (names.filter (fun name => name ≠ "" ∧ name ≠ "."))

/-- The files of a list, each with the path under which it lies. -/
def Files.ofList (contents : List (String × String)) : Files := fun path => do
  let names ← pathNames? path
  let (_, content) ← contents.find? (fun (place, _) => pathNames? place = some names)
  return content

end JsEmitter.CommandLine
