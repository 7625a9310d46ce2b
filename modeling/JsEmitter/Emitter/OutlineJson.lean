import JsEmitter.Emission.PiecesJson
import JsEmitter.Emitter.Report

/-!
# Outlines as JSON

Results with one line for every statement in place of the trees, together with the names that
are defined at top level.
-/
namespace JsEmitter

open Js (Tree)

/-- The lines of statements. -/
def Js.Tree.outlinesToJson (trees : List Tree) : Json := .ofList .str (trees.map Tree.outline)

/-- The names that statements introduce at top level. -/
def Js.Tree.definedToJson (trees : List Tree) : Json := .ofList .str (Tree.definedNames trees)

/-- The outline of the statements of a class. -/
def ClassFragments.outlineJson (fragments : Tracked ClassFragments) : Json :=
  .arr [
    Tree.definedToJson fragments.value.main,
    Tree.definedToJson fragments.value.typeSupport,
    Tree.definedToJson fragments.value.staticFields,
    Tree.outlinesToJson fragments.value.staticInitializers,
    fragments.refs.toJson]

/-- The outline of a module. -/
def ModuleOutput.outlineJson (output : ModuleOutput) : Json :=
  .obj [
    ("id", .ofName output.id),
    ("outline", Tree.outlinesToJson output.trees),
    ("defined", .ofList .str output.definedNames),
    ("globals", output.refs.toJson)]

/-- The members of the outline of a run. -/
def EmitResult.outlineMembers (result : EmitResult) : List (String × Json) := [
  ("modules", .ofList ModuleOutput.outlineJson result.modules),
  ("dangerous", .str result.dangerousRefs.text),
  ("globals", .str result.refs.text),
  ("stats", .str result.stats.text),
  ("passes", .int result.passes),
  ("header", .str result.header)]

end JsEmitter
