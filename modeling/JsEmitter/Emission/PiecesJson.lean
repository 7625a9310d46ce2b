import JsEmitter.Emission.Module
import JsEmitter.Js.TreeJson
import JsEmitter.Linked.ExprJson

/-!
# JSON form of generated pieces

What generation gives, from single constructors to whole modules, as objects with the trees as
they are written and the host names in increasing order.
-/
namespace JsEmitter

open Js (Tree)

/-- Host names as an array. -/
def HostRefs.toJson (refs : HostRefs) : Json := .ofList .str refs.toList

/-- A generated value with its host names. -/
def Tracked.toJson {α : Type} (write : α → Json) (tracked : Tracked α) : Json :=
  .obj [("value", write tracked.value), ("globals", tracked.refs.toJson)]

/-- The pieces of a constructor as JSON. -/
def Lowering.ConstructorParts.toJson (parts : Lowering.ConstructorParts) : Json :=
  .obj [
    ("parent", .ofOption Tree.toJson parts.parent?),
    ("params", .ofList .str parts.params),
    ("before_super", Tree.listToJson parts.beforeSuper),
    ("super_args", .ofOption Tree.listToJson parts.superArgs?),
    ("after_super", Tree.listToJson parts.afterSuper)]

/-- The bootstrap library of a context as JSON, with the link from instances of the root class to
its type data. -/
def Lowering.Context.bootstrapToJson (context : Lowering.Context) : Json :=
  let library := context.bootstrap
  .obj [
    ("pre", Tree.listToJson library.value.beforeRoot),
    ("post", Tree.listToJson library.value.afterRoot),
    ("init", Tree.listToJson library.value.afterClasses),
    ("globals", library.refs.toJson),
    ("root_class_data", context.rootTypeDataLink.toJson)]

/-- The statements of a class as JSON. -/
def ClassFragments.toJson (fragments : Tracked ClassFragments) : Json :=
  .obj [
    ("name", .ofName fragments.value.name),
    ("main", Tree.listToJson fragments.value.main),
    ("type_support", Tree.listToJson fragments.value.typeSupport),
    ("static_fields", Tree.listToJson fragments.value.staticFields),
    ("static_initializers", Tree.listToJson fragments.value.staticInitializers),
    ("globals", fragments.refs.toJson)]

/-- The output of a module as JSON. -/
def ModuleOutput.toJson (output : ModuleOutput) : Json :=
  .obj [
    ("id", .ofName output.id),
    ("imports", Tree.listToJson output.imports),
    ("body", Tree.listToJson output.body),
    ("globals", output.refs.toJson)]

end JsEmitter
