import JsEmitter.Emitter
import JsEmitter.Js.Outline

/-!
# Reports

A report gives the outline of a run, line by line: the number of passes, the counters, the
dangerous names if there are any, and every module with one line for each statement.
-/
namespace JsEmitter

/-- The counters on one line. -/
def EmitStats.text (stats : EmitStats) : String :=
  "classes: " ++ toString stats.classesReused ++ " reused, " ++
    toString stats.classesInvalidated ++ " invalidated; methods: " ++
    toString stats.methodsReused ++ " reused, " ++ toString stats.methodsInvalidated ++
    " invalidated"

/-- The lines about one module. -/
def ModuleOutput.reportLines (output : ModuleOutput) : List String :=
  ("module " ++ output.id.text ++ ":") :: output.trees.map (fun tree => "  " ++ tree.outline)

namespace EmitResult

/-- The lines about a run. -/
def reportLines (result : EmitResult) : List String :=
  ["passes: " ++ toString result.passes, result.stats.text] ++
  (if result.dangerousRefs.isEmpty then []
    else ["dangerous globals: " ++ result.dangerousRefs.text]) ++
  result.modules.flatMap ModuleOutput.reportLines

/-- The outline of a run. -/
def report (result : EmitResult) : String := "\n".intercalate result.reportLines ++ "\n"

end EmitResult

end JsEmitter
