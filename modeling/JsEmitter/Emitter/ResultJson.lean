import JsEmitter.Emission.PiecesJson
import JsEmitter.Emitter

/-!
# JSON form of results

The result of a run is an object with the modules under their ids and the sets of host names as
arrays in increasing order.
-/
namespace JsEmitter

/-- The counters of a run as JSON. -/
def EmitStats.toJson (stats : EmitStats) : Json :=
  .obj [
    ("classes_reused", .int stats.classesReused),
    ("classes_invalidated", .int stats.classesInvalidated),
    ("methods_reused", .int stats.methodsReused),
    ("methods_invalidated", .int stats.methodsInvalidated)]

/-- The result of a run as JSON. -/
def EmitResult.toJson (result : EmitResult) : Json :=
  .obj [
    ("header", .str result.header),
    ("modules", .obj (result.modules.map (fun output => (output.id.text, output.toJson)))),
    ("global_refs", result.refs.toJson),
    ("dangerous_global_refs", result.dangerousRefs.toJson),
    ("stats", result.stats.toJson),
    ("passes", .int result.passes)]

end JsEmitter
