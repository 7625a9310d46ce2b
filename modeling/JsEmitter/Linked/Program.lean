import JsEmitter.Linked.Class

/-!
# Linked programs

A program is a list of modules, each with the classes that the linker put into it, the modules
it depends on, the names it exports and the methods it calls when it is loaded.
-/
namespace JsEmitter

/-- What a module exports under a name. -/
inductive ExportKind where
  | method (params : List String) (body : Expr)
  /-- The instance of a singleton. -/
  | singleton (owner : ClassName)
  | jsClass (owner : ClassName)
  /-- A static field. -/
  | field (owner : ClassName) (name : FieldName)
deriving Inhabited

/-- The class whose definition an export reads, if any. -/
def ExportKind.referencedClass? : ExportKind → Option ClassName
  | method .. => none
  | singleton owner | jsClass owner | field owner _ => some owner

/-- An export of a module. -/
structure TopLevelExport where
  name : String
  kind : ExportKind
  version : Version
deriving Inhabited

/-- A call of a public static method when the module is loaded. -/
structure Initializer where
  owner : ClassName
  method : MethodName
deriving DecidableEq, Inhabited

/-- A module of the program. -/
structure Module where
  id : ModuleId
  classes : List LinkedClass
  externalDependencies : SortedSet String
  internalDependencies : SortedSet ModuleId
  topLevelExports : List TopLevelExport
  initializers : List Initializer
  initializersVersion : Version
  isRoot : Bool
deriving Inhabited

/-- Everything that one run of the emitter takes in. -/
structure Program where
  modules : List Module
deriving Inhabited

namespace Program

/-- The first module that is marked as the root. -/
def rootModule? (program : Program) : Option Module := program.modules.find? Module.isRoot

/-- Every class with its module, in the order of the program. -/
def classes (program : Program) : List (Module × LinkedClass) :=
  program.modules.flatMap (fun unit => unit.classes.map (fun linked => (unit, linked)))

/-- The first class of a name, with its module. -/
def findClass? (program : Program) (name : ClassName) : Option (Module × LinkedClass) :=
  program.classes.find? (fun owned => owned.2.name = name)

end Program

end JsEmitter
