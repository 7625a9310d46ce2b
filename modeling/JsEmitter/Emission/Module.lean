import JsEmitter.Lowering.ModuleParts
import JsEmitter.Emission.Class

/-!
# Emission of a module

The statements of the classes of a module are laid out in an order in which everything is
defined before it is used: the bootstrap library around the root class, the other classes from
superclasses to subclasses, all static fields, the static initializers, and at last the exports
and the calls at load time.
-/
namespace JsEmitter

open Js (Tree)
open Lowering (Context Bootstrap)

/-- The generated statements of one module. -/
structure ModuleOutput where
  id : ModuleId
  imports : List Tree
  body : List Tree
  /-- The host names that are used anywhere in the module. -/
  refs : HostRefs

namespace ModuleOutput

/-- The imports followed by the body. -/
def trees (output : ModuleOutput) : List Tree := output.imports ++ output.body

/-- The names that are introduced at top level, in order. -/
def definedNames (output : ModuleOutput) : List String := Tree.definedNames output.trees

end ModuleOutput

namespace Module

/-- Whether a class comes no later than another: fewer ancestors first, then by name. -/
def comesFirst (first second : LinkedClass) : Bool :=
  ((compare first.ancestors.length second.ancestors.length).then
    (compare first.name second.name)).isLE

/-- The classes in the order in which they are emitted, superclasses first. -/
def emissionOrder (unit : Module) : List LinkedClass := unit.classes.mergeSort comesFirst

end Module

namespace Emission

/-- The statements of the classes of a module, with those of the bootstrap library if it is
there. -/
def classStatements (context : Context) (bootstrap? : Option Bootstrap)
    (classes : List ClassFragments) : List Tree :=
  let roots := classes.filter (fun fragments => fragments.name.isRoot)
  let others := classes.filter (fun fragments => !fragments.name.isRoot)
  let rootLink : List Tree :=
    if bootstrap?.isSome && !roots.isEmpty && context.index.rootHasInstances then
      [context.rootTypeDataLink]
    else []
  (bootstrap?.map Bootstrap.beforeRoot).getD [] ++
  roots.flatMap ClassFragments.main ++
  (bootstrap?.map Bootstrap.afterRoot).getD [] ++
  rootLink ++
  others.flatMap (fun fragments => fragments.main ++ fragments.typeSupport) ++
  (bootstrap?.map Bootstrap.afterClasses).getD [] ++
  classes.flatMap ClassFragments.staticFields ++
  classes.flatMap ClassFragments.staticInitializers

/-- The bootstrap library where it is emitted: in the root module only. -/
def bootstrapOf (unit : Module) (bootstrap? : Option (Artifact Bootstrap)) :
    Tracked (Option Bootstrap) :=
  .option ((bootstrap?.filter (fun _ => unit.isRoot)).map Artifact.tracked)

/-- The exports that let other modules of the program use definitions, if any module does. -/
def emitInternalExports (context : Context) (exported : Bool) (statements : List Tree) :
    Tracked (List Tree) :=
  if exported then context.internalExports (Tree.definedNames statements) else pure []

/-- The output of a module. The definitions are exported to other modules of the program if
`exported` says so. -/
def emitModule (context : Context) (bootstrap? : Option (Artifact Bootstrap)) (unit : Module)
    (exported : Bool) : Step EmitError Caches ModuleOutput := do
  let imports ← Caches.requestModulePart unit.id .imports (context.importsVersion unit)
    (fun _ => .ok (context.imports unit))
  let classes ← unit.emissionOrder.mapM (emitClass context)
  let fragments := Tracked.list classes
  let bootstrap := bootstrapOf unit bootstrap?
  let statements := classStatements context bootstrap.value fragments.value
  let internal := emitInternalExports context exported statements
  let exports ← Caches.requestModulePart unit.id .topLevelExports
    (context.topLevelExportsVersion unit)
    (fun _ => .ok (context.topLevelExports unit.topLevelExports))
  let initializers ← Caches.requestModulePart unit.id .initializers
    (context.initializersVersion unit)
    (fun _ => .ok (pure (context.moduleInitializers unit.initializers)))
  let body := statements ++ internal.value ++ exports.value ++ initializers.value
  if body.isEmpty then
    throw (.emptyModule unit.id (unit.classes.map LinkedClass.name))
  else
    return {
      id := unit.id
      imports := imports.value
      body := body
      refs := imports.refs ∪ fragments.refs ∪ bootstrap.refs ∪ internal.refs ∪ exports.refs ∪
        initializers.refs }

end Emission

end JsEmitter
