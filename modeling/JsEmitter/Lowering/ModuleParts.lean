import JsEmitter.Lowering.Body
import JsEmitter.Linked.Program

/-!
# Parts of a module

What a module imports, what it exports to other modules of the program and to the outside, and
what it calls when it is loaded. Every module except the root imports the root module, which
has the bootstrap library.
-/
namespace JsEmitter.Lowering

open Js (Tree DeclKind PropName Property)

namespace Context

/-- The calls at load time. -/
def moduleInitializers (context : Context) (calls : List Initializer) : List Tree :=
  calls.map (fun call => .apply (context.functionRef .staticPublic call.owner call.method) [])

/-- The definitions that an export needs before it, and its value. -/
def exportValue (context : Context) (entry : TopLevelExport) : Tracked (List Tree × Tree) :=
  let binding := context.naming.exportBinding entry.name
  match entry.kind with
  | .method params body =>
    (context.lower .plain body).map (fun tree =>
      ([.functionDef binding params none tree], .varRef binding))
  | .singleton owner =>
    pure ([], .apply (context.classMemberRef owner (context.naming.moduleAccessor owner)) [])
  | .jsClass owner => pure ([], context.classRef owner)
  | .field owner name =>
    pure ([], context.classMemberRef owner (context.naming.staticField owner name))

/-- The statements that export a value from a module with export declarations. A local name is
exported as it is, so that later assignments are seen. -/
def moduleExport (binding name : String) (value : Tree) : List Tree :=
  match value with
  | .varRef inner => [.exportNames [(inner, name)]]
  | other => [.varDef .constant binding (some other), .exportNames [(binding, name)]]

/-- The statements of one export. -/
def topLevelExport (context : Context) (entry : TopLevelExport) : Tracked (List Tree) := do
  let (before, value) ← context.exportValue entry
  match context.config.moduleKind with
  | .esModule =>
    return before ++ moduleExport (context.naming.exportBinding entry.name) entry.name value
  | .commonJs =>
    let exports ← context.hostRef "exports"
    return before ++ [.assign (context.propSelect exports entry.name) value]
  | .script => return before ++ [.varDef .functionScoped entry.name (some value)]

/-- The statements of all exports. -/
def topLevelExports (context : Context) (entries : List TopLevelExport) : Tracked (List Tree) :=
  (entries.mapM context.topLevelExport).map List.flatten

/-- The modules that a module imports: those it depends on, and the root module. -/
def importedModules (context : Context) (unit : Module) : SortedSet ModuleId :=
  match context.index.rootModule? with
  | some root =>
    if root = unit.id then unit.internalDependencies else unit.internalDependencies.insert root
  | none => unit.internalDependencies

/-- The local names of the imports with the paths that they are imported from. -/
def importBindings (context : Context) (unit : Module) : List (String × String) :=
  (context.importedModules unit).toList.map (fun id =>
    (context.naming.internalImport id, context.config.modulePath id)) ++
  unit.externalDependencies.toList.map (fun source =>
    (context.naming.externalImport source, source))

/-- The statement of one import. -/
def importStatement (context : Context) (binding path : String) : Tracked Tree :=
  match context.config.moduleKind with
  | .commonJs =>
    (context.hostRef "require").map (fun require =>
      .varDef .constant binding (some (.apply require [.str path])))
  | _ => pure (.importNamespace binding path)

/-- The statements of all imports. -/
def imports (context : Context) (unit : Module) : Tracked (List Tree) :=
  if context.config.moduleKind = .script then pure []
  else (context.importBindings unit).mapM (fun (binding, path) =>
    context.importStatement binding path)

/-- The statements that let other modules of the program use definitions of a module. -/
def internalExports (context : Context) (names : List String) : Tracked (List Tree) :=
  if names.isEmpty then pure []
  else
    match context.config.moduleKind with
    | .script => pure []
    | .esModule => pure [.exportNames (names.map (fun name => (name, name)))]
    | .commonJs =>
      (context.hostRef "exports").map (fun exports => names.map (fun name =>
        .assign (context.propSelect exports name) (.varRef name)))

end Context

end JsEmitter.Lowering
